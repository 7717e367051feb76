import Mathlib

/-!
# Records read from key and value pairs

A record that is read from a list of pairs. `splitTag` takes the value of one key out, which
says how the others are to be read, and `readFields` collects the values of the named keys.
Both visit the pairs one after another, and refuse a key that they look for and meet twice.
Other keys are passed over.

So all that matters are the values of the keys that are looked for (`splitTag_eq_some_iff`,
`readFields_eq_some_iff`), and neither the order of the pairs nor what stands between them
(`perm_values`, `values_insert`).
-/

namespace Records

variable {K V : Type*} [DecidableEq K]

/-! ## The visitors -/

/-- The values of a key, in order. -/
def values (key : K) (pairs : List (K × V)) : List V :=
  pairs.filterMap fun p => if p.1 = key then some p.2 else none

/-- Visit the pairs of a map with a tag. -/
def visitTagged (tag : K) : List (K × V) → Option V → List (K × V) →
    Option (Option V × List (K × V))
  | [], value, content => some (value, content)
  | (k, v) :: pairs, value, content =>
    if k = tag then
      if value.isSome then none else visitTagged tag pairs (some v) content
    else visitTagged tag pairs value (content ++ [(k, v)])

/-- The value of the tag, and the other pairs. -/
def splitTag (tag : K) (pairs : List (K × V)) : Option (V × List (K × V)) :=
  (visitTagged tag pairs none []).bind fun p => p.1.map fun v => (v, p.2)

/-- Visit the pairs of a map with the named fields. -/
def visitFields (names : List K) : List (K × V) → (K → Option V) → Option (K → Option V)
  | [], fields => some fields
  | (k, v) :: pairs, fields =>
    if k ∈ names then
      if (fields k).isSome then none
      else visitFields names pairs (Function.update fields k (some v))
    else visitFields names pairs fields

/-- The values of the named keys. -/
def readFields (names : List K) (pairs : List (K × V)) : Option (K → Option V) :=
  visitFields names pairs fun _ => none

/-! ## Values -/

section Values

variable {key : K} {pairs pairs' : List (K × V)}

@[simp] theorem values_nil (key : K) : values key ([] : List (K × V)) = [] :=
  rfl

theorem values_cons (key k : K) (v : V) (pairs : List (K × V)) :
    values key ((k, v) :: pairs) = if k = key then v :: values key pairs else values key pairs := by
  unfold values
  split <;> rename_i h <;> simp [h]

@[simp] theorem values_cons_self (v : V) :
    values key ((key, v) :: pairs) = v :: values key pairs := by
  rw [values_cons, if_pos rfl]

@[simp] theorem values_cons_of_ne {k : K} (h : k ≠ key) (v : V) :
    values key ((k, v) :: pairs) = values key pairs := by
  rw [values_cons, if_neg h]

theorem perm_values (key : K) (h : pairs.Perm pairs') :
    (values key pairs).Perm (values key pairs') :=
  h.filterMap _

theorem values_append (key : K) (pairs pairs' : List (K × V)) :
    values key (pairs ++ pairs') = values key pairs ++ values key pairs' :=
  List.filterMap_append

/-- A pair of another key does not matter. -/
theorem values_insert {k : K} (h : k ≠ key) (v : V) (pairs pairs' : List (K × V)) :
    values key (pairs ++ (k, v) :: pairs') = values key (pairs ++ pairs') := by
  rw [values_append, values_cons_of_ne h, values_append]

/-- Nor do those of a key that was taken out. -/
theorem values_filter_ne {tag : K} (h : key ≠ tag) (pairs : List (K × V)) :
    values key (pairs.filter fun p => p.1 ≠ tag) = values key pairs := by
  induction pairs with
  | nil => rfl
  | cons p pairs ih =>
    obtain ⟨k, v⟩ := p
    by_cases hk : k = tag
    · rw [List.filter_cons_of_neg (by simpa using hk), ih, values_cons_of_ne (hk ▸ h.symm)]
    · rw [List.filter_cons_of_pos (by simpa using hk), values_cons, values_cons, ih]

end Values

/-! ## What is read -/

theorem toList_inj {value value' : Option V} : value.toList = value'.toList ↔ value = value' := by
  cases value <;> cases value' <;> simp

theorem visitTagged_eq_some_iff {tag : K} {pairs : List (K × V)} {value value' : Option V}
    {content content' : List (K × V)} :
    visitTagged tag pairs value content = some (value', content') ↔
      value.toList ++ values tag pairs = value'.toList ∧
        content ++ pairs.filter (fun p => p.1 ≠ tag) = content' := by
  induction pairs generalizing value content with
  | nil =>
    rw [visitTagged, Option.some_inj, Prod.mk.injEq, values_nil, List.filter_nil, List.append_nil,
      List.append_nil]
    exact and_congr_left fun _ => ⟨congrArg _, toList_inj.1⟩
  | cons p pairs ih =>
    obtain ⟨k, v⟩ := p
    by_cases hk : k = tag
    · subst hk
      rw [visitTagged, if_pos rfl, values_cons_self, List.filter_cons_of_neg (by simp)]
      cases value with
      | none => exact ih
      | some w =>
        refine iff_of_false (by simp) fun h => ?_
        cases value' <;> simp at h
    · rw [visitTagged, if_neg hk, values_cons_of_ne hk,
        List.filter_cons_of_pos (by simpa using hk), ih, List.append_assoc, List.singleton_append]

/-- The tag is there once. -/
theorem splitTag_eq_some_iff {tag : K} {pairs content : List (K × V)} {v : V} :
    splitTag tag pairs = some (v, content) ↔
      values tag pairs = [v] ∧ content = pairs.filter fun p => p.1 ≠ tag := by
  unfold splitTag
  rw [Option.bind_eq_some_iff]
  constructor
  · rintro ⟨⟨value, content'⟩, hvisit, hvalue⟩
    obtain ⟨w, rfl, hw⟩ := Option.map_eq_some_iff.1 hvalue
    obtain ⟨rfl, rfl⟩ := Prod.mk.inj hw
    obtain ⟨htag, hrest⟩ := visitTagged_eq_some_iff.1 hvisit
    exact ⟨htag, hrest.symm⟩
  · rintro ⟨htag, rfl⟩
    exact ⟨(some v, _), visitTagged_eq_some_iff.2 ⟨htag, rfl⟩, rfl⟩

theorem visitFields_eq_some_iff {names : List K} {pairs : List (K × V)}
    {fields fields' : K → Option V} :
    visitFields names pairs fields = some fields' ↔
      ∀ k, if k ∈ names then (fields k).toList ++ values k pairs = (fields' k).toList
        else fields k = fields' k := by
  induction pairs generalizing fields with
  | nil =>
    rw [visitFields, Option.some_inj, funext_iff]
    refine forall_congr' fun k => ?_
    split
    · rw [values_nil, List.append_nil, toList_inj]
    · rfl
  | cons p pairs ih =>
    obtain ⟨key, v⟩ := p
    by_cases hkey : key ∈ names
    · rw [visitFields, if_pos hkey]
      cases hfield : fields key with
      | none =>
        rw [if_neg (by simp), ih]
        refine forall_congr' fun k => ?_
        by_cases hk : k = key
        · subst hk
          simp [hkey, hfield]
        · simp [Function.update_of_ne hk, values_cons_of_ne (Ne.symm hk)]
      | some w =>
        refine iff_of_false (by simp) fun h => ?_
        have hk := h key
        rw [if_pos hkey, hfield, values_cons_self] at hk
        cases hfield' : fields' key <;> simp [hfield'] at hk
    · rw [visitFields, if_neg hkey, ih]
      refine forall_congr' fun k => ?_
      by_cases hk : k ∈ names
      · rw [values_cons_of_ne (ne_of_mem_of_not_mem hk hkey).symm]
      · rw [if_neg hk, if_neg hk]

/-- No named key is there twice. -/
theorem readFields_eq_some_iff {names : List K} {pairs : List (K × V)} {fields : K → Option V} :
    readFields names pairs = some fields ↔
      ∀ k, if k ∈ names then values k pairs = (fields k).toList else fields k = none := by
  unfold readFields
  rw [visitFields_eq_some_iff]
  refine forall_congr' fun k => ?_
  split
  · rfl
  · exact eq_comm

theorem values_of_readFields {names : List K} {pairs : List (K × V)} {fields : K → Option V}
    (h : readFields names pairs = some fields) {k : K} (hk : k ∈ names) :
    values k pairs = (fields k).toList := by
  have hfield := readFields_eq_some_iff.1 h k
  rwa [if_pos hk] at hfield

/-- Each named key is there once. -/
theorem readFields_of_values {names : List K} {pairs : List (K × V)} {fields : K → V}
    (h : ∀ k ∈ names, values k pairs = [fields k]) :
    readFields names pairs = some fun k => if k ∈ names then some (fields k) else none := by
  refine readFields_eq_some_iff.2 fun k => ?_
  by_cases hk : k ∈ names
  · rw [if_pos hk, if_pos hk, h k hk, Option.toList_some]
  · rw [if_neg hk, if_neg hk]

/-! ## Enums with a tag -/

/-- How an enum with a tag is read : the variant that a value of the tag names, the keys that it
looks for, and what it makes of their values. -/
structure Tagged (K V M α : Type*) where
  tag : K
  variant : V → Option M
  fields : M → List K
  make : M → (K → Option V) → Option α
  tag_notMem : ∀ m, tag ∉ fields m

/-- The value of each named key, if it has one. -/
def firstValues (names : List K) (pairs : List (K × V)) (k : K) : Option V :=
  if k ∈ names then (values k pairs).head? else none

theorem readFields_eq_some_iff_length {names : List K} {pairs : List (K × V)}
    {fields : K → Option V} : readFields names pairs = some fields ↔
      (∀ k ∈ names, (values k pairs).length ≤ 1) ∧ firstValues names pairs = fields := by
  have hlist (l : List V) (v : Option V) : l = v.toList ↔ l.length ≤ 1 ∧ l.head? = v := by
    match l, v with
    | [], none | [], some _ | [_], none | [_], some _ | _ :: _ :: _, none
    | _ :: _ :: _, some _ => simp
  rw [readFields_eq_some_iff, funext_iff, ← forall_and]
  refine forall_congr' fun k => ?_
  unfold firstValues
  by_cases hk : k ∈ names
  · simp [hk, hlist]
  · simp [hk, eq_comm]

namespace Tagged

variable {M α : Type*} (e : Tagged K V M α) {pairs pairs' : List (K × V)}

/-- Read a value of the enum. The errors are not told apart. -/
def read (pairs : List (K × V)) : Option α :=
  (splitTag e.tag pairs).bind fun p => (e.variant p.1).bind fun m =>
    (readFields (e.fields m) p.2).bind (e.make m)

/-- Why pairs are refused. -/
inductive Refused (pairs : List (K × V)) : Prop
  /-- The tag is missing, repeated, or names no variant. -/
  | tag (h : ∀ name, values e.tag pairs = [name] → e.variant name = none)
  /-- A key of the variant is repeated. -/
  | repeated {name : V} {m : M} {k : K} (htag : values e.tag pairs = [name])
      (hvariant : e.variant name = some m) (hk : k ∈ e.fields m)
      (h : 1 < (values k pairs).length)
  /-- The variant makes nothing of the values. -/
  | make {name : V} {m : M} (htag : values e.tag pairs = [name])
      (hvariant : e.variant name = some m)
      (h : e.make m (firstValues (e.fields m) pairs) = none)

theorem firstValues_filter (m : M) (pairs : List (K × V)) :
    firstValues (e.fields m) (pairs.filter fun p => p.1 ≠ e.tag) =
      firstValues (e.fields m) pairs := by
  funext k
  unfold firstValues
  split
  · rename_i hk
    rw [values_filter_ne (ne_of_mem_of_not_mem hk (e.tag_notMem m))]
  · rfl

/-- What is read, said by the values of the tag and of the keys of the variant. -/
theorem read_eq_some_iff {a : α} : e.read pairs = some a ↔
    ∃ name m, values e.tag pairs = [name] ∧ e.variant name = some m ∧
      (∀ k ∈ e.fields m, (values k pairs).length ≤ 1) ∧
      e.make m (firstValues (e.fields m) pairs) = some a := by
  unfold read
  simp only [Option.bind_eq_some_iff, Prod.exists, splitTag_eq_some_iff,
    readFields_eq_some_iff_length]
  constructor
  · rintro ⟨name, content, ⟨htag, rfl⟩, m, hm, fields, ⟨hlength, rfl⟩, hmake⟩
    refine ⟨name, m, htag, hm, fun k hk => ?_, ?_⟩
    · rw [← values_filter_ne (ne_of_mem_of_not_mem hk (e.tag_notMem m))]
      exact hlength k hk
    · rwa [← e.firstValues_filter]
  · rintro ⟨name, m, htag, hm, hlength, hmake⟩
    refine ⟨name, _, ⟨htag, rfl⟩, m, hm, _, ⟨fun k hk => ?_, rfl⟩, ?_⟩
    · rw [values_filter_ne (ne_of_mem_of_not_mem hk (e.tag_notMem m))]
      exact hlength k hk
    · rwa [e.firstValues_filter]

/-- Nothing else is refused. -/
theorem read_eq_none_iff : e.read pairs = none ↔ e.Refused pairs := by
  simp only [Option.eq_none_iff_forall_ne_some, Ne, read_eq_some_iff]
  constructor
  · intro h
    by_cases htag : ∀ name, values e.tag pairs = [name] → e.variant name = none
    · exact .tag htag
    · push Not at htag
      obtain ⟨name, hname, hvariant⟩ := htag
      obtain ⟨m, hm⟩ := Option.ne_none_iff_exists'.1 hvariant
      by_cases hlength : ∀ k ∈ e.fields m, (values k pairs).length ≤ 1
      · refine .make hname hm (Option.eq_none_iff_forall_ne_some.2 fun a ha => ?_)
        exact h a ⟨name, m, hname, hm, hlength, ha⟩
      · push Not at hlength
        obtain ⟨k, hk, hlt⟩ := hlength
        exact .repeated hname hm hk hlt
  · rintro hr a ⟨name, m, hname, hm, hlength, hmake⟩
    cases hr with
    | tag h => cases (h name hname).symm.trans hm
    | repeated htag hvariant hk h =>
      obtain rfl := List.singleton_inj.1 (htag.symm.trans hname)
      obtain rfl := Option.some_inj.1 (hvariant.symm.trans hm)
      exact absurd (hlength _ hk) (not_le.2 h)
    | make htag hvariant h =>
      obtain rfl := List.singleton_inj.1 (htag.symm.trans hname)
      obtain rfl := Option.some_inj.1 (hvariant.symm.trans hm)
      cases h.symm.trans hmake

/-- Only the values of the tag, and of the keys that the named variant looks for, matter. -/
theorem read_congr (htag : (values e.tag pairs).Perm (values e.tag pairs'))
    (hfields : ∀ name ∈ values e.tag pairs, ∀ m, e.variant name = some m → ∀ k ∈ e.fields m,
      (values k pairs).Perm (values k pairs')) : e.read pairs = e.read pairs' := by
  have hread {pairs pairs' : List (K × V)} {a : α}
      (htag : (values e.tag pairs).Perm (values e.tag pairs'))
      (hfields : ∀ name ∈ values e.tag pairs, ∀ m, e.variant name = some m → ∀ k ∈ e.fields m,
        (values k pairs).Perm (values k pairs')) (h : e.read pairs = some a) :
      e.read pairs' = some a := by
    obtain ⟨name, m, hname, hm, hlength, hmake⟩ := e.read_eq_some_iff.1 h
    have hperm := hfields name (hname ▸ List.mem_singleton_self _) m hm
    have hfirst : firstValues (e.fields m) pairs' = firstValues (e.fields m) pairs := by
      funext k
      unfold firstValues
      split
      · rename_i hk
        have hlen := hlength k hk
        have hk := hperm k hk
        match hv : values k pairs, hlen with
        | [], _ => rw [hv] at hk; rw [hk.symm.eq_nil]
        | [v], _ => rw [hv] at hk; rw [List.perm_singleton.1 hk.symm]
      · rfl
    refine e.read_eq_some_iff.2 ⟨name, m, ?_, hm, fun k hk => ?_, ?_⟩
    · exact List.perm_singleton.1 (hname ▸ htag.symm)
    · rw [← (hperm k hk).length_eq]
      exact hlength k hk
    · rw [hfirst]
      exact hmake
  refine Option.ext fun a => ⟨hread htag hfields, hread htag.symm fun name hname m hm k hk => ?_⟩
  exact (hfields name (htag.mem_iff.2 hname) m hm k hk).symm

/-- The order of the pairs does not matter. -/
theorem read_of_perm (h : pairs.Perm pairs') : e.read pairs = e.read pairs' :=
  e.read_congr (perm_values _ h) fun _ _ _ _ _ _ => perm_values _ h

/-- Nor does a pair whose key is looked for by no variant that the tag names. -/
theorem read_insert {left right : List (K × V)} {k : K} (htag : k ≠ e.tag)
    (hk : ∀ name ∈ values e.tag (left ++ right), ∀ m, e.variant name = some m → k ∉ e.fields m)
    (v : V) : e.read (left ++ (k, v) :: right) = e.read (left ++ right) := by
  have hvalues := values_insert htag v left right
  refine e.read_congr (.of_eq hvalues) fun name hname m hm j hj => .of_eq (values_insert ?_ _ _ _)
  rintro rfl
  exact hk name (hvalues ▸ hname) m hm hj

end Tagged

end Records
