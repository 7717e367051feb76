import Mathlib

/-!
# Queries of a table

A condition on a row has one of three truth values (`Truth`) : a comparison with null is
not known to be true. A `Query` selects the rows whose condition is true, in the order in
which a scan meets them or in a given one, and returns some columns of each.

A result without an order is only determined up to one, and is said to list a set (`Lists`,
`Lists.perm`). `Least` is the first of an ordered result.
-/

namespace Sql

/-! ## Conditions -/

/-- A truth value, `none` where it is not known. -/
abbrev Truth := Option Bool

variable {α : Type*}

/-- A comparison, not known if one side is null. -/
def compare (p : α → α → Bool) : Option α → Option α → Truth
  | some a, some b => some (p a b)
  | _, _ => none

def eq [DecidableEq α] : Option α → Option α → Truth :=
  compare fun a b => a = b

def le [LE α] [DecidableLE α] : Option α → Option α → Truth :=
  compare fun a b => a ≤ b

def isNull (a : Option α) : Truth :=
  some a.isNone

def isNotNull (a : Option α) : Truth :=
  some a.isSome

def not : Truth → Truth :=
  Option.map Bool.not

def and : Truth → Truth → Truth
  | some true, b => b
  | some false, _ => some false
  | none, some false => some false
  | none, _ => none

/-- The condition is true. -/
def Truth.holds (a : Truth) : Bool :=
  a == some true

@[simp] theorem holds_some (b : Bool) : Truth.holds (some b) = b := by
  cases b <;> rfl

@[simp] theorem holds_and (a b : Truth) : (and a b).holds = (a.holds && b.holds) := by
  rcases a with - | - | - <;> rcases b with - | - | - <;> rfl

@[simp] theorem holds_eq [DecidableEq α] (a b : α) :
    (eq (some a) (some b)).holds = decide (a = b) :=
  holds_some _

@[simp] theorem holds_not_eq [DecidableEq α] (a b : α) :
    (not (eq (some a) (some b))).holds = decide (a ≠ b) := by
  unfold eq compare not
  rw [Option.map_some, holds_some, decide_not]

/-- No comparison with null is true. -/
@[simp] theorem holds_le_iff [LE α] [DecidableLE α] {a : Option α} {b : α} :
    (le a (some b)).holds = true ↔ ∃ x ∈ a, x ≤ b := by
  cases a with
  | none => simp [le, compare, Truth.holds]
  | some a => simp [le, compare]

@[simp] theorem holds_isNull (a : Option α) : (isNull a).holds = a.isNone :=
  holds_some _

@[simp] theorem holds_isNotNull (a : Option α) : (isNotNull a).holds = a.isSome :=
  holds_some _

/-! ## Queries -/

/-- A query of a table with rows `R` for columns `C`. -/
structure Query (R C : Type*) where
  condition : R → Truth
  columns : R → C
  /-- The order of the rows, if one is asked for. -/
  order : Option (R → R → Bool)
  limit : Option ℕ

namespace Query

variable {R C D : Type*}

/-- All rows. -/
def table : Query R R :=
  ⟨fun _ => some true, id, none, none⟩

def filter (q : Query R C) (condition : R → Truth) : Query R C :=
  { q with condition := fun r => and (q.condition r) (condition r) }

def select (q : Query R C) (columns : R → D) : Query R D :=
  { q with columns }

def orderBy (q : Query R C) (le : R → R → Bool) : Query R C :=
  { q with order := some le }

def take (q : Query R C) (n : ℕ) : Query R C :=
  { q with limit := some n }

/-- The condition of the row is true. -/
def selects (q : Query R C) (r : R) : Bool :=
  (q.condition r).holds

/-- The result of the query, when a scan meets the rows in the given order. -/
def result (q : Query R C) (scan : List R) : List C :=
  let rows := scan.filter q.selects
  let sorted := q.order.elim rows fun le => rows.insertionSort fun r r' => le r r'
  (q.limit.elim sorted fun n => sorted.take n).map q.columns

@[simp] theorem selects_table (r : R) : table.selects r = true :=
  rfl

@[simp] theorem selects_filter (q : Query R C) (condition : R → Truth) (r : R) :
    (q.filter condition).selects r = (q.selects r && (condition r).holds) :=
  holds_and _ _

@[simp] theorem selects_select (q : Query R C) (columns : R → D) :
    (q.select columns).selects = q.selects :=
  rfl

@[simp] theorem selects_orderBy (q : Query R C) (le : R → R → Bool) :
    (q.orderBy le).selects = q.selects :=
  rfl

@[simp] theorem selects_take (q : Query R C) (n : ℕ) : (q.take n).selects = q.selects :=
  rfl

@[simp] theorem columns_filter (q : Query R C) (condition : R → Truth) :
    (q.filter condition).columns = q.columns :=
  rfl

@[simp] theorem columns_select (q : Query R C) (columns : R → D) :
    (q.select columns).columns = columns :=
  rfl

theorem result_of_unordered {q : Query R C} (ho : q.order = none) (hl : q.limit = none)
    (scan : List R) : q.result scan = (scan.filter q.selects).map q.columns := by
  unfold result
  rw [ho, hl]
  rfl

end Query

/-! ## Orders -/

/-- Ascending order, with nulls at one end. -/
def ascending [LE α] [DecidableLE α] (nullsFirst : Bool) : Option α → Option α → Bool
  | some a, some b => a ≤ b
  | none, some _ => nullsFirst
  | some _, none => !nullsFirst
  | none, none => true

section Ascending

variable [LE α] [DecidableLE α] [Std.IsLinearOrder α] (nullsFirst : Bool)

theorem ascending_trans : ∀ {a b c : Option α}, ascending nullsFirst a b = true →
    ascending nullsFirst b c = true → ascending nullsFirst a c = true
  | some _, some _, some _, h, h' =>
    decide_eq_true (Std.le_trans (of_decide_eq_true h) (of_decide_eq_true h'))
  | some _, none, some _, h, h' => by simp_all [ascending]
  | none, some _, none, h, h' => rfl
  | none, none, some _, h, h' => h'
  | some _, none, none, h, h' => h
  | some _, some _, none, h, h' => h'
  | none, some _, some _, h, h' => h
  | none, none, none, h, h' => rfl

theorem ascending_total (a b : Option α) :
    (ascending nullsFirst a b || ascending nullsFirst b a) = true := by
  rcases a with - | a <;> rcases b with - | b
  · rfl
  · cases nullsFirst <;> rfl
  · cases nullsFirst <;> rfl
  · rw [Bool.or_eq_true, ascending, ascending, decide_eq_true_iff, decide_eq_true_iff]
    exact Std.le_total

end Ascending

/-- The first row in an order is before all others. -/
theorem of_head?_insertionSort {R : Type*} {le : R → R → Bool} {l : List R} {r : R}
    (htrans : ∀ a b c, le a b = true → le b c = true → le a c = true)
    (htotal : ∀ a b, (le a b || le b a) = true)
    (h : (l.insertionSort fun r r' => le r r').head? = some r) :
    r ∈ l ∧ ∀ s ∈ l, le r s = true := by
  have : Std.Total fun r r' => le r r' = true :=
    ⟨fun a b => Bool.or_eq_true _ _ ▸ htotal a b⟩
  have : IsTrans R fun r r' => le r r' = true := ⟨htrans⟩
  have hsorted := List.pairwise_insertionSort (fun r r' => le r r' = true) l
  have hmem (s : R) : s ∈ l.insertionSort (fun r r' => le r r' = true) ↔ s ∈ l :=
    List.mem_insertionSort _
  cases hs : l.insertionSort fun r r' => le r r' = true with
  | nil => simp [hs] at h
  | cons r' rest =>
    obtain rfl : r' = r := by simpa [hs] using h
    rw [hs] at hsorted
    refine ⟨(hmem r').1 (hs ▸ List.mem_cons_self), fun s hmem' => ?_⟩
    rcases List.mem_cons.1 (hs ▸ (hmem s).2 hmem') with rfl | hrest
    · simpa using htotal s s
    · exact List.rel_of_pairwise_cons hsorted hrest

/-! ## Results without an order -/

/-- The list has each element of the set once. -/
def Lists (l : List α) (s : Set α) : Prop :=
  l.Nodup ∧ ∀ a, a ∈ l ↔ a ∈ s

/-- Two lists of one set are the same up to order. -/
theorem Lists.perm {l l' : List α} {s : Set α} (h : Lists l s) (h' : Lists l' s) : l.Perm l' :=
  (List.perm_ext_iff_of_nodup h.1 h'.1).2 fun a => (h.2 a).trans (h'.2 a).symm

/-- The least element of the set, if there is one. -/
def Least [LE α] : Option α → Set α → Prop
  | some a, s => IsLeast s a
  | none, s => s = ∅

theorem Least.unique [LE α] [Std.IsPartialOrder α] {s : Set α} :
    ∀ {a b : Option α}, Least a s → Least b s → a = b
  | some _, some _, h, h' => congrArg some (Std.le_antisymm (h.2 h'.1) (h'.2 h.1))
  | none, none, _, _ => rfl
  | some _, none, h, h' => absurd (h' ▸ h.1) (Set.notMem_empty _)
  | none, some _, h, h' => absurd (h ▸ h'.1) (Set.notMem_empty _)

end Sql
