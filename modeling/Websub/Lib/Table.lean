import Mathlib

/-!
# Tables with a primary key

A `Table key` is a list of rows whose keys are distinct, which is a field, so that a table
with two rows of one key cannot be built. `insert` is refused where the key is taken,
`delete` and `update` act on the rows a predicate selects, and an update keeps the key of
every row. `mem_iff_of_rows` and `mem_delete` say which rows are in a table that was added
to or deleted from, and `eq_of_key` is the uniqueness that every operation keeps, which
makes a look-up by key find the one row there is (`head?_select_eq_some_iff`). The order of
the rows is the order in which a scan meets them.
-/

namespace Tables

/-- Rows with distinct keys. -/
@[ext] structure Table {K R : Type*} (key : R → K) where
  rows : List R
  nodup : (rows.map key).Nodup

namespace Table

variable {K R : Type*} {key : R → K}

instance [DecidableEq R] : DecidableEq (Table key) := fun a b =>
  decidable_of_iff (a.rows = b.rows) (Table.ext_iff).symm

instance : Membership R (Table key) :=
  ⟨fun t r => r ∈ t.rows⟩

theorem mem_def {t : Table key} {r : R} : r ∈ t ↔ r ∈ t.rows :=
  Iff.rfl

/-- A key has at most one row. -/
theorem eq_of_key {t : Table key} {r s : R} (hr : r ∈ t) (hs : s ∈ t) (h : key r = key s) :
    r = s :=
  List.inj_on_of_nodup_map t.nodup hr hs h

/-- The keys that are taken. -/
def keys (t : Table key) : List K :=
  t.rows.map key

theorem key_mem_keys {t : Table key} {r : R} (h : r ∈ t) : key r ∈ t.keys :=
  List.mem_map_of_mem h

/-- The rows of a table that a row was added to. -/
theorem mem_iff_of_rows {t u : Table key} {r : R} (h : u.rows = t.rows ++ [r]) {s : R} :
    s ∈ u ↔ s ∈ t ∨ s = r := by
  rw [mem_def, h, List.mem_append, List.mem_singleton, mem_def]

/-- Rows that were added, to rows whose keys are those of a table, have keys that were free. -/
theorem not_mem_keys_of_append {t u : Table key} {olds news : List R} (h : u.rows = olds ++ news)
    (hkeys : olds.map key = t.keys) {r : R} (hr : r ∈ news) : key r ∉ t.keys := by
  have hn := u.nodup
  rw [h, List.map_append, List.nodup_append, hkeys] at hn
  exact fun hmem => hn.2.2 _ hmem _ (List.mem_map_of_mem hr) rfl

/-- The key of a row that was added was free. -/
theorem not_mem_keys_of_rows {t u : Table key} {r : R} (h : u.rows = t.rows ++ [r]) :
    key r ∉ t.keys :=
  not_mem_keys_of_append h rfl (List.mem_singleton_self r)

/-- The rows a predicate selects. -/
def select (t : Table key) (p : R → Bool) : List R :=
  t.rows.filter p

@[simp] theorem mem_select {t : Table key} {p : R → Bool} {r : R} :
    r ∈ t.select p ↔ r ∈ t ∧ p r = true :=
  List.mem_filter

/-- Where a predicate fixes the key, the first row it selects is the only one. -/
theorem head?_select_eq_some_iff {t : Table key} {p : R → Bool} {k : K}
    (hp : ∀ r, p r = true → key r = k) {r : R} :
    (t.select p).head? = some r ↔ r ∈ t ∧ p r = true := by
  constructor
  · intro h
    exact mem_select.1 (List.mem_of_head? h)
  · intro h
    cases hs : t.select p with
    | nil =>
      have hmem := mem_select.2 h
      simp [hs] at hmem
    | cons s l =>
      have hmem : s ∈ t.select p := hs ▸ List.mem_cons_self
      obtain ⟨hs', hps⟩ := mem_select.1 hmem
      rw [List.head?_cons, eq_of_key hs' h.1 ((hp s hps).trans (hp r h.2).symm)]

section Lookup

variable [DecidableEq K] {t : Table key} {k : K} {r : R}

/-- The row of a key. -/
def lookup (t : Table key) (k : K) : Option R :=
  (t.select fun r => key r = k).head?

theorem lookup_eq_some_iff : t.lookup k = some r ↔ r ∈ t ∧ key r = k := by
  unfold lookup
  rw [head?_select_eq_some_iff fun _ => of_decide_eq_true, decide_eq_true_iff]

/-- It is the only one. -/
theorem select_key (t : Table key) (k : K) :
    (t.select fun r => key r = k) = (t.lookup k).toList := by
  have hnodup : ((t.select fun r => key r = k).map key).Nodup :=
    t.nodup.sublist (List.filter_sublist.map _)
  have hkey : ∀ r ∈ t.select fun r => key r = k, key r = k :=
    fun r hr => of_decide_eq_true (mem_select.1 hr).2
  unfold lookup
  match t.select fun r => key r = k, hnodup, hkey with
  | [], _, _ => rfl
  | [r], _, _ => rfl
  | r :: s :: rows, hnodup, hkey =>
    have hsame : key r = key s := (hkey r (by simp)).trans (hkey s (by simp)).symm
    simp [hsame] at hnodup

end Lookup

/-- Add a row, refused where its key is taken. -/
def insert [DecidableEq K] (t : Table key) (r : R) : Option (Table key) :=
  if h : key r ∈ t.keys then none
  else some ⟨t.rows ++ [r], by
    rw [List.map_append, List.nodup_append]
    refine ⟨t.nodup, by simp, fun a ha b hb hab => h ?_⟩
    obtain rfl : b = key r := by simpa using hb
    exact hab ▸ ha⟩

section Insert

variable [DecidableEq K] {t u : Table key} {r : R}

theorem insert_eq_none_iff : t.insert r = none ↔ key r ∈ t.keys := by
  unfold insert
  split <;> simp_all

theorem rows_of_insert (h : t.insert r = some u) : u.rows = t.rows ++ [r] := by
  unfold insert at h
  split at h
  · cases h
  · rw [← Option.some_inj.1 h]

theorem not_mem_of_insert (h : t.insert r = some u) : key r ∉ t.keys :=
  not_mem_keys_of_rows (rows_of_insert h)

end Insert

/-- Drop the rows a predicate selects. -/
def delete (t : Table key) (p : R → Bool) : Table key :=
  ⟨t.rows.filter fun r => !p r, t.nodup.sublist (List.filter_sublist.map _)⟩

@[simp] theorem mem_delete {t : Table key} {p : R → Bool} {r : R} :
    r ∈ t.delete p ↔ r ∈ t ∧ p r = false := by
  rw [mem_def, delete, List.mem_filter, Bool.not_eq_true', mem_def]

/-- Change the rows a predicate selects, keeping their keys. -/
def update (t : Table key) (p : R → Bool) (f : R → R) (hf : ∀ r, key (f r) = key r) : Table key :=
  ⟨t.rows.map fun r => if p r then f r else r, by
    have : (key ∘ fun r => if p r then f r else r) = key := by
      funext r
      by_cases h : p r <;> simp [h, hf]
    rw [List.map_map, this]
    exact t.nodup⟩

end Table

end Tables
