import Websub.Call
import Websub.Lib.Records
import Websub.Lib.Urlencoded

/-!
# The query of a verification

`hub::Verify` as its derived implementations write and read it, `util::deserialize_from_str`,
and `Service::verify_intent` from the text of the query on.

The mode is the tag of the enum, and the other pairs are kept as strings until it is known. So
a lease, which is written as a number, is read with `u64::from_str`, which takes a leading plus
and leading zeroes too.

A value depends on nothing but the values of the mode and of the keys that the mode uses
(`deserialize_eq_some_iff`). From this follow the round trip, that order and other keys do not
matter, and which queries are refused (`fromStr_toQuery`).
-/

namespace Websub

open Records Programs Http

/-! ## The code -/

/-- `u64::checked_mul`. -/
def checkedMul (a b : UInt64) : Option UInt64 :=
  if a.toNat * b.toNat < 2 ^ 64 then some (a * b) else none

/-- `u64::checked_add`. -/
def checkedAdd (a b : UInt64) : Option UInt64 :=
  if a.toNat + b.toNat < 2 ^ 64 then some (a + b) else none

/-- One more decimal digit. -/
def pushDigit (n : UInt64) (c : Char) : Option UInt64 :=
  if c.isDigit then
    (checkedMul n 10).bind fun n => checkedAdd n (UInt64.ofNat (c.toNat - '0'.toNat))
  else none

/-- `u64::from_str`. -/
def u64FromStr (s : String) : Option UInt64 :=
  match s.toList with
  | [] => none
  | '+' :: digits => if digits = [] then none else digits.foldlM pushDigit 0
  | digits => digits.foldlM pushDigit 0

/-- The variants of `Verify`, which the tag chooses between. -/
inductive Mode
  | subscribe
  | unsubscribe
deriving DecidableEq

namespace Mode

/-- The tag of the enum. -/
def tag : String :=
  "hub.mode"

/-- The value of the tag. -/
def name : Mode → String
  | subscribe => "subscribe"
  | unsubscribe => "unsubscribe"

/-- The variant of a value of the tag. -/
def ofName (name : String) : Option Mode :=
  if name = "subscribe" then some subscribe
  else if name = "unsubscribe" then some unsubscribe
  else none

/-- The fields of the variant. -/
def fields : Mode → List String
  | subscribe => ["hub.topic", "hub.challenge", "hub.lease_seconds"]
  | unsubscribe => ["hub.topic", "hub.challenge"]

end Mode

namespace Verify

/-- `Serialize`. -/
def serialize : Verify → List (String × String)
  | subscribe topic challenge leaseSeconds =>
    [(Mode.tag, Mode.subscribe.name), ("hub.topic", topic), ("hub.challenge", challenge),
      ("hub.lease_seconds", toString leaseSeconds)]
  | unsubscribe topic challenge =>
    [(Mode.tag, Mode.unsubscribe.name), ("hub.topic", topic), ("hub.challenge", challenge)]

/-- The value of a variant, once its fields are read. A field that is not there is an error. -/
def ofFields (fields : String → Option String) : Mode → Option Verify
  | .subscribe => do
    let topic ← fields "hub.topic"
    let challenge ← fields "hub.challenge"
    let lease ← fields "hub.lease_seconds"
    let leaseSeconds ← u64FromStr lease
    return .subscribe topic challenge leaseSeconds
  | .unsubscribe => do
    let topic ← fields "hub.topic"
    let challenge ← fields "hub.challenge"
    return .unsubscribe topic challenge

/-- `Deserialize`. The errors are not told apart. -/
def deserialize (pairs : List (String × String)) : Option Verify := do
  let (name, content) ← splitTag Mode.tag pairs
  let mode ← Mode.ofName name
  let fields ← readFields mode.fields content
  ofFields fields mode

/-- `serde_urlencoded::to_string`. -/
def toQuery (v : Verify) : List Char :=
  Urlencoded.serialize v.serialize

/-- `serde_urlencoded::from_str`. -/
def fromStr (query : List Char) : Option Verify :=
  deserialize (Urlencoded.parse query)

end Verify

/-- `Service::verify_intent`, from the query on, which is what a call does with
`Verify.fromStr`. -/
def Service.verifyQuery {cs : Charset} (env : Env) (service : Service cs) (now id : UInt64)
    (query : List Char) : Db (Task cs) Answer :=
  service.verifyIntent env now id (Verify.fromStr query)

/-! ## Numbers -/

theorem checkedMul_eq_some_iff {a b c : UInt64} :
    checkedMul a b = some c ↔ c.toNat = a.toNat * b.toNat := by
  have hc := c.toNat_lt
  unfold checkedMul
  split
  · rename_i h
    rw [Option.some_inj, ← UInt64.toNat_inj, UInt64.toNat_mul, Nat.mod_eq_of_lt h, eq_comm]
  · simp only [reduceCtorEq, false_iff]
    omega

theorem checkedAdd_eq_some_iff {a b c : UInt64} :
    checkedAdd a b = some c ↔ c.toNat = a.toNat + b.toNat := by
  have hc := c.toNat_lt
  unfold checkedAdd
  split
  · rename_i h
    rw [Option.some_inj, ← UInt64.toNat_inj, UInt64.toNat_add, Nat.mod_eq_of_lt h, eq_comm]
  · simp only [reduceCtorEq, false_iff]
    omega

/-- A digit is pushed if the number still fits. -/
theorem pushDigit_eq_some_iff {n m : UInt64} {c : Char} : pushDigit n c = some m ↔
    c.isDigit = true ∧ m.toNat = 10 * n.toNat + (c.toNat - '0'.toNat) := by
  unfold pushDigit
  by_cases hc : c.isDigit = true
  · have hdigit : (UInt64.ofNat (c.toNat - '0'.toNat)).toNat = c.toNat - '0'.toNat := by
      refine UInt64.toNat_ofNat_of_lt' ?_
      exact (Nat.sub_le _ _).trans_lt (c.val.toNat_lt.trans (by decide))
    have hm := m.toNat_lt
    rw [if_pos hc, Option.bind_eq_some_iff]
    simp only [checkedMul_eq_some_iff, checkedAdd_eq_some_iff, hdigit, hc, true_and]
    constructor
    · rintro ⟨k, hk, hsum⟩
      rw [hsum, hk, Nat.mul_comm]
      rfl
    · intro hsum
      have hlt : 10 * n.toNat < 2 ^ 64 := by omega
      refine ⟨UInt64.ofNat (10 * n.toNat), ?_, ?_⟩
      · rw [UInt64.toNat_ofNat_of_lt' hlt, Nat.mul_comm]
        rfl
      · rw [UInt64.toNat_ofNat_of_lt' hlt, hsum]
  · rw [if_neg hc]
    exact iff_of_false (by simp) fun h => hc h.1

theorem le_ofDigitChars (digits : List Char) (n : ℕ) : n ≤ Nat.ofDigitChars 10 digits n := by
  rw [Nat.ofDigitChars_eq_ofDigitChars_zero]
  exact (Nat.le_mul_of_pos_left n (by positivity)).trans (Nat.le_add_right _ _)

/-- Digits are read unless they overflow. -/
theorem foldlM_pushDigit_eq_some_iff {digits : List Char} {n m : UInt64} :
    digits.foldlM pushDigit n = some m ↔
      (∀ c ∈ digits, c.isDigit = true) ∧ m.toNat = Nat.ofDigitChars 10 digits n.toNat := by
  induction digits generalizing n with
  | nil =>
    rw [List.foldlM_nil, Option.pure_def, Option.some_inj, Nat.ofDigitChars_nil, UInt64.toNat_inj]
    exact ⟨fun h => ⟨List.forall_mem_nil _, h.symm⟩, fun h => h.2.symm⟩
  | cons c digits ih =>
    rw [List.foldlM_cons, Option.bind_eq_bind, Option.bind_eq_some_iff, List.forall_mem_cons,
      Nat.ofDigitChars_cons]
    constructor
    · rintro ⟨k, hpush, hfold⟩
      obtain ⟨hc, hk⟩ := pushDigit_eq_some_iff.1 hpush
      obtain ⟨hdigits, hm⟩ := ih.1 hfold
      exact ⟨⟨hc, hdigits⟩, hk ▸ hm⟩
    · rintro ⟨⟨hc, hdigits⟩, hm⟩
      have hlt : 10 * n.toNat + (c.toNat - '0'.toNat) < 2 ^ 64 :=
        (le_ofDigitChars digits _).trans_lt (hm ▸ m.toNat_lt)
      have hk := UInt64.toNat_ofNat_of_lt' hlt
      exact ⟨_, pushDigit_eq_some_iff.2 ⟨hc, hk⟩, ih.2 ⟨hdigits, by rw [hk, hm]⟩⟩

/-- A decimal number below `2 ^ 64`, with an optional plus. -/
theorem u64FromStr_eq_some_iff {s : String} {n : UInt64} : u64FromStr s = some n ↔
    ∃ digits, digits ≠ [] ∧ (s.toList = digits ∨ s.toList = '+' :: digits) ∧
      (∀ c ∈ digits, c.isDigit = true) ∧ n.toNat = Nat.ofDigitChars 10 digits 0 := by
  unfold u64FromStr
  split
  · rename_i h
    rw [h]
    refine iff_of_false (by simp) ?_
    rintro ⟨digits, hne, hdigits | hdigits, -⟩
    · exact hne hdigits.symm
    · cases hdigits
  · rename_i digits h
    rw [h, Option.ite_none_left_eq_some, foldlM_pushDigit_eq_some_iff]
    constructor
    · rintro ⟨hne, hdigits, hn⟩
      exact ⟨digits, hne, .inr rfl, hdigits, hn⟩
    · rintro ⟨digits', hne, hdigits' | hdigits', hdigits, hn⟩
      · subst hdigits'
        exact absurd (hdigits '+' List.mem_cons_self) (by decide)
      · obtain rfl := (List.cons.inj hdigits').2
        exact ⟨hne, hdigits, hn⟩
  · rename_i hnil hplus
    rw [foldlM_pushDigit_eq_some_iff]
    constructor
    · rintro ⟨hdigits, hn⟩
      exact ⟨s.toList, hnil, .inl rfl, hdigits, hn⟩
    · rintro ⟨digits, -, hdigits' | hdigits', hdigits, hn⟩
      · subst hdigits'
        exact ⟨hdigits, hn⟩
      · exact absurd hdigits' (hplus digits)

/-- A plus and leading zeroes are read, and never written. -/
example : u64FromStr "+007" = some 7 := by
  decide

/-- A number is read back as it is written. -/
theorem u64FromStr_toString (n : UInt64) : u64FromStr (toString n) = some n := by
  have hlist : (toString n).toList = Nat.toDigits 10 n.toNat := Nat.toList_repr
  exact u64FromStr_eq_some_iff.2 ⟨_, Nat.toDigits_ne_nil, .inl hlist,
    fun _ => Nat.isDigit_of_mem_toDigits (by decide) (by decide),
    Nat.ofDigitChars_ten_toDigits.symm⟩

/-! ## What a verification is read from -/

/-- The pairs have the mode of the value once, and each of its fields once. -/
def Verify.ReadFrom (pairs : List (String × String)) : Verify → Prop
  | .subscribe topic challenge leaseSeconds =>
    values Mode.tag pairs = [Mode.subscribe.name] ∧ values "hub.topic" pairs = [topic] ∧
      values "hub.challenge" pairs = [challenge] ∧
      ∃ lease, values "hub.lease_seconds" pairs = [lease] ∧ u64FromStr lease = some leaseSeconds
  | .unsubscribe topic challenge =>
    values Mode.tag pairs = [Mode.unsubscribe.name] ∧ values "hub.topic" pairs = [topic] ∧
      values "hub.challenge" pairs = [challenge]

/-- The key is not the mode, and none of the fields of the mode. -/
def Unused (pairs : List (String × String)) (key : String) : Prop :=
  key ≠ Mode.tag ∧ ∀ mode : Mode, mode.name ∈ values Mode.tag pairs → key ∉ mode.fields

/-- Why a query is refused. -/
inductive Refused (pairs : List (String × String)) : Prop
  /-- The mode is missing, repeated, or none of the two. -/
  | mode (h : ∀ mode : Mode, values Mode.tag pairs ≠ [mode.name])
  /-- A field of the mode is missing or repeated. -/
  | field {mode : Mode} {key : String} (hmode : values Mode.tag pairs = [mode.name])
      (hkey : key ∈ mode.fields) (h : (values key pairs).length ≠ 1)
  /-- The lease of a subscription is not a `u64`. -/
  | lease {lease : String} (hmode : values Mode.tag pairs = [Mode.subscribe.name])
      (hlease : lease ∈ values "hub.lease_seconds" pairs) (h : u64FromStr lease = none)

section Deserialize

variable {pairs pairs' : List (String × String)} {v : Verify} {mode mode' : Mode}

/-- A mode is known by its name alone. -/
theorem Mode.ofName_eq_some_iff {name : String} :
    Mode.ofName name = some mode ↔ name = mode.name := by
  unfold Mode.ofName Mode.name
  cases mode <;> grind

theorem Mode.name_injective : Function.Injective Mode.name := by
  intro mode mode' h
  have hmode := Mode.ofName_eq_some_iff.2 h
  rwa [Mode.ofName_eq_some_iff.2 rfl, Option.some_inj] at hmode

theorem Mode.ne_tag_of_mem {key : String} (h : key ∈ mode.fields) : key ≠ Mode.tag := by
  rintro rfl
  cases mode <;> exact absurd h (by decide)

namespace Verify

/-- Only the fields of the mode are read. -/
theorem ofFields_congr {fields fields' : String → Option String}
    (h : ∀ key ∈ mode.fields, fields key = fields' key) :
    ofFields fields mode = ofFields fields' mode := by
  cases mode <;> simp_all [ofFields, Mode.fields]

/-- Every field of the mode is needed. -/
theorem isSome_of_ofFields {fields : String → Option String} (h : ofFields fields mode = some v) :
    ∀ key ∈ mode.fields, (fields key).isSome := by
  cases mode <;> simp only [ofFields, Mode.fields, Option.bind_eq_bind,
    Option.bind_eq_some_iff] at h ⊢ <;> grind

/-- With all fields, only the lease can be refused. -/
theorem ofFields_eq_none_iff {fields : String → String} :
    ofFields (fun key => some (fields key)) mode = none ↔
      mode = .subscribe ∧ u64FromStr (fields "hub.lease_seconds") = none := by
  cases mode with
  | subscribe => simpa [ofFields] using Option.eq_none_iff_forall_ne_some.symm
  | unsubscribe => simp [ofFields]

/-- The fields of the mode are what the value is made of. -/
theorem readFrom_iff : v.ReadFrom pairs ↔ ∃ (mode : Mode) (fields : String → String),
    values Mode.tag pairs = [mode.name] ∧ (∀ key ∈ mode.fields, values key pairs = [fields key]) ∧
      ofFields (fun key => some (fields key)) mode = some v := by
  constructor
  · intro h
    cases v with
    | subscribe topic challenge leaseSeconds =>
      obtain ⟨htag, htopic, hchallenge, lease, hlease, hparse⟩ := h
      refine ⟨.subscribe, fun key => (values key pairs).headD "", htag, ?_, ?_⟩
      · simp [Mode.fields, htopic, hchallenge, hlease]
      · simp [ofFields, htopic, hchallenge, hlease, hparse]
    | unsubscribe topic challenge =>
      obtain ⟨htag, htopic, hchallenge⟩ := h
      refine ⟨.unsubscribe, fun key => (values key pairs).headD "", htag, ?_, ?_⟩
      · simp [Mode.fields, htopic, hchallenge]
      · simp [ofFields, htopic, hchallenge]
  · rintro ⟨mode, fields, htag, hfields, hv⟩
    cases mode with
    | subscribe =>
      simp only [ofFields, Option.bind_eq_bind, Option.bind_some, Option.bind_eq_some_iff] at hv
      obtain ⟨leaseSeconds, hparse, hv⟩ := hv
      obtain rfl := Option.some_inj.1 hv
      exact ⟨htag, hfields _ (by decide), hfields _ (by decide), _, hfields _ (by decide), hparse⟩
    | unsubscribe =>
      obtain rfl := Option.some_inj.1 hv
      exact ⟨htag, hfields _ (by decide), hfields _ (by decide)⟩

/-- A value is read exactly from the pairs that have its mode and its fields. -/
theorem deserialize_eq_some_iff : deserialize pairs = some v ↔ v.ReadFrom pairs := by
  rw [readFrom_iff]
  unfold deserialize
  simp only [Option.bind_eq_bind, Option.bind_eq_some_iff, Prod.exists, splitTag_eq_some_iff,
    Mode.ofName_eq_some_iff]
  constructor
  · rintro ⟨name, content, ⟨htag, rfl⟩, mode, rfl, fields, hfields, hv⟩
    have hsome : ∀ key ∈ mode.fields, some ((fields key).getD "") = fields key := by
      intro key hkey
      obtain ⟨value, hvalue⟩ := Option.isSome_iff_exists.1 (isSome_of_ofFields hv key hkey)
      rw [hvalue, Option.getD_some]
    refine ⟨mode, fun key => (fields key).getD "", htag, fun key hkey => ?_, ?_⟩
    · rw [← values_filter_ne (Mode.ne_tag_of_mem hkey), values_of_readFields hfields hkey,
        ← hsome key hkey, Option.toList_some]
    · rw [ofFields_congr hsome, hv]
  · rintro ⟨mode, fields, htag, hfields, hv⟩
    have hcontent : ∀ key ∈ mode.fields,
        values key (pairs.filter fun p => p.1 ≠ Mode.tag) = [fields key] := by
      intro key hkey
      rw [values_filter_ne (Mode.ne_tag_of_mem hkey), hfields key hkey]
    refine ⟨_, _, ⟨htag, rfl⟩, mode, rfl, _, readFields_of_values hcontent, ?_⟩
    rw [← hv]
    exact ofFields_congr fun key hkey => if_pos hkey

/-- What is written is read from the pairs. -/
theorem readFrom_serialize (v : Verify) : v.ReadFrom v.serialize := by
  cases v with
  | subscribe topic challenge leaseSeconds =>
    exact ⟨by simp [serialize, Mode.tag], by simp [serialize, Mode.tag],
      by simp [serialize, Mode.tag], _, by simp [serialize, Mode.tag],
      u64FromStr_toString leaseSeconds⟩
  | unsubscribe topic challenge =>
    exact ⟨by simp [serialize, Mode.tag], by simp [serialize, Mode.tag],
      by simp [serialize, Mode.tag]⟩

/-- Only the values of the mode and of the fields of the mode matter. -/
theorem ReadFrom.congr (htag : (values Mode.tag pairs).Perm (values Mode.tag pairs'))
    (hfields : ∀ mode : Mode, mode.name ∈ values Mode.tag pairs → ∀ key ∈ mode.fields,
      (values key pairs).Perm (values key pairs'))
    (h : v.ReadFrom pairs) : v.ReadFrom pairs' := by
  rw [readFrom_iff] at h ⊢
  obtain ⟨mode, fields, hmode, hvalues, hv⟩ := h
  refine ⟨mode, fields, ?_, fun key hkey => ?_, hv⟩
  · exact List.perm_singleton.1 (hmode ▸ htag.symm)
  · have hperm := hfields mode (hmode ▸ List.mem_singleton_self _) key hkey
    exact List.perm_singleton.1 (hvalues key hkey ▸ hperm.symm)

theorem deserialize_congr (htag : (values Mode.tag pairs).Perm (values Mode.tag pairs'))
    (hfields : ∀ mode : Mode, mode.name ∈ values Mode.tag pairs → ∀ key ∈ mode.fields,
      (values key pairs).Perm (values key pairs')) : deserialize pairs = deserialize pairs' := by
  refine Option.ext fun v => ?_
  rw [deserialize_eq_some_iff, deserialize_eq_some_iff]
  exact ⟨.congr htag hfields, .congr htag.symm fun mode hmode key hkey =>
    (hfields mode (htag.mem_iff.2 hmode) key hkey).symm⟩

/-- The order of the pairs does not matter. -/
theorem deserialize_of_perm (h : pairs.Perm pairs') : deserialize pairs = deserialize pairs' :=
  deserialize_congr (perm_values _ h) fun _ _ _ _ => perm_values _ h

/-- A pair whose key is not used does not matter. -/
theorem deserialize_insert {left right : List (String × String)} {key : String}
    (h : Unused (left ++ right) key) (value : String) :
    deserialize (left ++ (key, value) :: right) = deserialize (left ++ right) := by
  have htag := values_insert h.1 value left right
  refine deserialize_congr (.of_eq htag) fun mode hmode k hk => .of_eq (values_insert ?_ _ _ _)
  rintro rfl
  exact h.2 mode (htag ▸ hmode) hk

/-- Nothing else is refused. -/
theorem deserialize_eq_none_iff : deserialize pairs = none ↔ Refused pairs := by
  simp only [Option.eq_none_iff_forall_ne_some, Ne, deserialize_eq_some_iff, readFrom_iff]
  constructor
  · intro h
    by_cases hmode : ∃ mode : Mode, values Mode.tag pairs = [mode.name]
    · obtain ⟨mode, hmode⟩ := hmode
      by_cases hfields : ∀ key ∈ mode.fields, values key pairs = [(values key pairs).headD ""]
      · cases hv : ofFields (fun key => some ((values key pairs).headD "")) mode with
        | some v => exact absurd ⟨mode, _, hmode, hfields, hv⟩ (h v)
        | none =>
          obtain ⟨rfl, hlease⟩ := ofFields_eq_none_iff.1 hv
          refine .lease hmode ?_ hlease
          rw [hfields _ (by decide)]
          exact List.mem_singleton_self _
      · push Not at hfields
        obtain ⟨key, hkey, hne⟩ := hfields
        refine .field hmode hkey fun hone => hne ?_
        obtain ⟨value, hvalue⟩ := List.length_eq_one_iff.1 hone
        rw [hvalue, List.headD_cons]
    · exact .mode (not_exists.1 hmode)
  · rintro hr v ⟨mode, fields, htag, hfields, hv⟩
    cases hr with
    | mode h => exact h mode htag
    | field hmode hkey h =>
      obtain rfl := Mode.name_injective (List.singleton_inj.1 (hmode.symm.trans htag))
      exact h (by rw [hfields _ hkey, List.length_singleton])
    | lease hmode hlease h =>
      obtain rfl : Mode.subscribe = mode :=
        Mode.name_injective (List.singleton_inj.1 (hmode.symm.trans htag))
      rw [hfields _ (by decide), List.mem_singleton] at hlease
      rw [ofFields_eq_none_iff.2 ⟨rfl, hlease ▸ h⟩] at hv
      cases hv

/-- A query is read back as it is written. -/
theorem fromStr_toQuery (v : Verify) : fromStr v.toQuery = some v := by
  unfold fromStr toQuery
  rw [Urlencoded.parse_serialize]
  exact deserialize_eq_some_iff.2 (readFrom_serialize v)

end Verify

end Deserialize

/-- For every value : the query that it is written as is read as it. For every query : the order
of its pairs does not matter, a pair with a key that the mode does not use does not matter
wherever it is inserted, and the query is refused exactly if the mode or one of its fields
is missing or repeated, the mode is none of the two, or the lease of a subscription is not a
`u64`. -/
theorem verify_query :
    (∀ v : Verify, Verify.fromStr v.toQuery = some v) ∧
    (∀ q q', (Urlencoded.parse q).Perm (Urlencoded.parse q') →
      Verify.fromStr q = Verify.fromStr q') ∧
    (∀ q q' left right key value, Urlencoded.parse q = left ++ right →
      Urlencoded.parse q' = left ++ (key, value) :: right → Unused (Urlencoded.parse q) key →
        Verify.fromStr q' = Verify.fromStr q) ∧
    ∀ q, Verify.fromStr q = none ↔ Refused (Urlencoded.parse q) := by
  refine ⟨Verify.fromStr_toQuery, fun q q' h => Verify.deserialize_of_perm h, ?_,
    fun q => Verify.deserialize_eq_none_iff⟩
  intro q q' left right key value hq hq' h
  unfold Verify.fromStr
  rw [hq] at h ⊢
  rw [hq']
  exact Verify.deserialize_insert h value

/-! ## The service -/

/-- What a hub asks for, behind the path of the callback, is a URI with that query. -/
theorem query_of_tryFrom {path : List Char} (hpath : path.all Charset.http.path = true)
    (v : Verify) :
    ∃ p, PathAndQuery.tryFrom .http (path ++ '?' :: v.toQuery) = some p ∧
      p.query = some v.toQuery := by
  have hchars : ('&' :: '=' :: Urlencoded.alphabet).all Charset.http.query = true := by
    decide
  have hquestion : '?' ∉ path := fun h => by
    simpa [Charset.http.path_question] using List.all_eq_true.1 hpath _ h
  have hquery := queryPart_append_question hquestion v.toQuery
  have hvalid : Valid .http (path ++ '?' :: v.toQuery) := by
    unfold Valid
    rw [pathPart_append_question hquestion, hquery]
    refine ⟨hpath, fun q hq => ?_⟩
    obtain rfl := Option.some_inj.1 hq
    exact List.all_eq_true.2 fun c hc =>
      List.all_eq_true.1 hchars c (Urlencoded.serialize_subset _ hc)
  exact ⟨_, PathAndQuery.tryFrom_of_valid hvalid, hquery⟩

namespace Service

variable {cs : Charset} (env : Env) (service : Service cs) (now id : UInt64)

/-- A call with a query asks for what the query is read as. -/
theorem callFor_of_query {hmac : Hmac} {B : Type} {env : CallEnv}
    (henv : env.verify = Verify.fromStr) {req : Request cs B} {q : List Char}
    (hq : req.uri.query = some q) :
    (service.callFor env now req id : Prog (Serving cs hmac B) CallError Response) = (do
      getConn
      let answer ← onConn (service.verifyQuery env.toEnv now id q)
      pure answer.response) := by
  unfold callFor verifyQuery
  rw [hq, henv]

/-- The service is asked what the hub has written. -/
theorem verifyQuery_toQuery (v : Verify) :
    service.verifyQuery env now id v.toQuery = service.verifyIntent env now id (some v) := by
  unfold verifyQuery
  rw [Verify.fromStr_toQuery]

/-- A query that is refused is answered with 404, and changes nothing. -/
theorem verifyQuery_of_refused {q : List Char} (h : Refused (Urlencoded.parse q))
    (w : World (Task cs)) : service.verifyQuery env now id q w = (.ok .notFound, w) := by
  unfold verifyQuery Verify.fromStr
  rw [Verify.deserialize_eq_none_iff.2 h]
  rfl

end Service

end Websub
