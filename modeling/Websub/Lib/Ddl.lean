import Mathlib
import Websub.Lib.Sql

/-!
# Statements that change a schema

A `Database` is a list of relations with names, each with its schema and a multiset of tuples.
Tables are looked up by their names, so the order of the list has no meaning. The statements are
those of a migration, with the rules of SQLite : a table is created, filled from a query,
dropped, renamed (`Statement.exec`), and one that is refused ends the script (`run`).

Foreign keys delete in cascade, and are enforced or not. If they are, a table that is dropped is
emptied first, which deletes the tuples that refer to its own, and so on (`Database.cascade`).
Where no table that is referred to refers to another one, the cascade is one step deep
(`Database.cascade_of_shallow`).
-/

namespace Ddl

/-! ## Databases -/

structure Column where
  name : String
  notNull : Bool
deriving DecidableEq

/-- A reference to a column of another table, with `ON DELETE CASCADE`. -/
structure ForeignKey where
  column : String
  table : String
  refColumn : String
deriving DecidableEq

structure Schema where
  name : String
  columns : List Column
  primaryKey : String
  foreignKeys : List ForeignKey
deriving DecidableEq

/-- The values of a row, in the order of the columns. -/
abbrev Tuple (V : Type) := List (Option V)

structure Relation (V : Type) where
  schema : Schema
  rows : Multiset (Tuple V)
deriving DecidableEq

abbrev Database (V : Type) := List (Relation V)

variable {V : Type}

/-- The value of a column. -/
def Schema.value (s : Schema) (row : Tuple V) (column : String) : Option V :=
  ((s.columns.map Column.name).idxOf? column).bind fun i => row.getD i none

/-- The table of a name. -/
def Database.find (db : Database V) (name : String) : Option (Relation V) :=
  List.find? (fun t => t.schema.name = name) db

def Database.size (db : Database V) : ℕ :=
  (db.map fun t => t.rows.card).sum

theorem Database.size_eq_zero_iff {db : Database V} : db.size = 0 ↔ ∀ t ∈ db, t.rows = 0 := by
  simp [Database.size, List.sum_eq_zero_iff]

/-! ## Queries -/

/-- A column, with its table where that has to be told. -/
structure ColumnRef where
  table : Option String
  column : String
deriving DecidableEq

/-- A query of one table, which another one may be joined to on the equality of two columns, and
whose rows may be restricted to those where a column is not null. -/
structure Select where
  columns : List ColumnRef
  source : String
  leftOuterJoin : Option (String × ColumnRef × ColumnRef)
  isNotNull : Option ColumnRef

/-- What a query reads from : the columns with their tables. -/
structure Source (V : Type) where
  columns : List (String × String)
  rows : Multiset (Tuple V)

/-- The place of a column. It must be the only one of its name. -/
def Source.resolve (s : Source V) (ref : ColumnRef) : Option ℕ :=
  match s.columns.findIdxs fun c => c.2 = ref.column && ref.table.all (c.1 = ·) with
  | [i] => some i
  | _ => none

def Relation.toSource (t : Relation V) : Source V :=
  ⟨t.schema.columns.map fun c => (t.schema.name, c.name), t.rows⟩

section Join

variable [DecidableEq V]

/-- The rows that are joined to a row on the left : a row of nulls if there is none. -/
def joinRow (width i j : ℕ) (right : Multiset (Tuple V)) (l : Tuple V) : Multiset (Tuple V) :=
  let rows := (right.map (l ++ ·)).filter fun r => (Sql.eq (r.getD i none) (r.getD j none)).holds
  if rows.card = 0 then {l ++ List.replicate width none} else rows

/-- `LEFT OUTER JOIN`. -/
def Source.leftOuterJoin (left right : Source V) (a b : ColumnRef) : Option (Source V) := do
  let both : Source V := ⟨left.columns ++ right.columns, 0⟩
  let i ← both.resolve a
  let j ← both.resolve b
  return { both with rows := left.rows.bind (joinRow right.columns.length i j right.rows) }

/-- `IS NOT NULL`. -/
def Source.isNotNull (s : Source V) (ref : ColumnRef) : Option (Source V) := do
  let i ← s.resolve ref
  return { s with rows := s.rows.filter fun r => (Sql.isNotNull (r.getD i none)).holds }

/-- `SELECT`, `none` if it is refused. -/
def Select.eval (q : Select) (db : Database V) : Option (Multiset (Tuple V)) := do
  let table ← db.find q.source
  let joined ← match q.leftOuterJoin with
    | none => pure table.toSource
    | some (right, a, b) => do
      let right ← db.find right
      table.toSource.leftOuterJoin right.toSource a b
  let selected ← match q.isNotNull with
    | none => pure joined
    | some ref => joined.isNotNull ref
  let places ← q.columns.mapM selected.resolve
  return selected.rows.map fun r => places.map fun i => r.getD i none

end Join

/-! ## Statements -/

inductive Statement
  | createTable (schema : Schema)
  /-- `INSERT INTO` some columns what a query selects. -/
  | insertSelect (table : String) (columns : List String) (select : Select)
  | dropTable (table : String)
  | renameTable (table new : String)

/-- A tuple with values for some columns, and nulls for the others. -/
def Schema.fill (s : Schema) (columns : List String) (row : Tuple V) : Tuple V :=
  s.columns.map fun c => (columns.idxOf? c.name).bind fun i => row.getD i none

/-- The references to a table follow its name. -/
def Schema.rename (table new : String) (s : Schema) : Schema :=
  { s with
    name := if s.name = table then new else s.name
    foreignKeys := s.foreignKeys.map fun f =>
      if f.table = table then { f with table := new } else f }

section Exec

variable [DecidableEq V]

/-- Some row has the value in the column. -/
def Relation.Has (t : Relation V) (column : String) (value : Option V) : Prop :=
  ∃ row ∈ t.rows, (Sql.eq value (t.schema.value row column)).holds = true

instance (t : Relation V) (column : String) (value : Option V) : Decidable (t.Has column value) :=
  Multiset.decidableExistsMultiset

/-- The row that the value refers to is there. -/
def ForeignKey.Finds (f : ForeignKey) (db : Database V) (value : Option V) : Prop :=
  ∃ t ∈ db, t.schema.name = f.table ∧ t.Has f.refColumn value

instance (f : ForeignKey) (db : Database V) (value : Option V) : Decidable (f.Finds db value) :=
  inferInstanceAs (Decidable (∃ t ∈ db, _))

/-- The row refers to one of those. -/
def Schema.RefersTo (s : Schema) (deleted : Database V) (row : Tuple V) : Prop :=
  ∃ f ∈ s.foreignKeys, f.Finds deleted (s.value row f.column)

instance (s : Schema) (deleted : Database V) : DecidablePred (s.RefersTo deleted) :=
  fun _ => inferInstanceAs (Decidable (∃ f ∈ s.foreignKeys, _))

/-- New rows are accepted : there is no null where none may be, no key twice, and the rows that
are referred to are there, if foreign keys are enforced. -/
def Accepts (foreignKeys : Bool) (db : Database V) (t : Relation V) (new : Multiset (Tuple V)) :
    Prop :=
  (∀ row ∈ new, ∀ c ∈ t.schema.columns, c.notNull = true → t.schema.value row c.name ≠ none) ∧
    ((t.rows + new).map fun row => t.schema.value row t.schema.primaryKey).Nodup ∧
    (foreignKeys = true → ∀ row ∈ new, ∀ f ∈ t.schema.foreignKeys,
      t.schema.value row f.column ≠ none → f.Finds db (t.schema.value row f.column))

instance (foreignKeys : Bool) (db : Database V) (t : Relation V) (new : Multiset (Tuple V)) :
    Decidable (Accepts foreignKeys db t new) :=
  inferInstanceAs (Decidable (_ ∧ _ ∧ _))

namespace Database

/-- The rows that refer to deleted ones. -/
def referring (deleted db : Database V) : Database V :=
  db.map fun t => { t with rows := t.rows.filter (t.schema.RefersTo deleted) }

/-- The other rows. -/
def kept (deleted db : Database V) : Database V :=
  db.map fun t => { t with rows := t.rows.filter fun row => ¬t.schema.RefersTo deleted row }

theorem size_referring_add_size_kept (deleted db : Database V) :
    size (referring deleted db) + size (kept deleted db) = size db := by
  unfold size referring kept
  induction db with
  | nil => rfl
  | cons t db ih =>
    have hcard := congrArg Multiset.card
      (Multiset.filter_add_not (t.schema.RefersTo deleted) t.rows)
    rw [Multiset.card_add] at hcard
    simp only [List.map_cons, List.sum_cons] at ih ⊢
    omega

/-- Delete the rows that refer to deleted ones, then those that refer to these. -/
def cascade (deleted db : Database V) : Database V :=
  if size (referring deleted db) = 0 then db else cascade (referring deleted db) (kept deleted db)
termination_by size db
decreasing_by
  have hsize := size_referring_add_size_kept deleted db
  omega

end Database

/-- One statement, `none` if it is refused. -/
def Statement.exec (foreignKeys : Bool) (db : Database V) : Statement → Option (Database V)
  | createTable schema =>
    if (db.find schema.name).isSome then none else some (db ++ [⟨schema, 0⟩])
  | insertSelect table columns select => do
    let t ← db.find table
    let selected ← select.eval db
    let new := selected.map (t.schema.fill columns)
    if Accepts foreignKeys db t new then
      return db.map fun u =>
        if u.schema.name = table then { u with rows := u.rows + new } else u
    else none
  | dropTable table => do
    let t ← db.find table
    let emptied := if foreignKeys then Database.cascade [t] db else db
    return emptied.filter fun u => u.schema.name ≠ table
  | renameTable table new => do
    let _ ← db.find table
    if (db.find new).isSome then none
    else return db.map fun u => { u with schema := u.schema.rename table new }

/-- A script, which a statement that is refused ends. -/
def run (foreignKeys : Bool) (script : List Statement) (db : Database V) : Option (Database V) :=
  script.foldlM (Statement.exec foreignKeys) db

/-! ## The cascade -/

section Cascade

variable {deleted db : Database V}

/-- No table that refers to another one is referred to. -/
def Shallow (schemas : List Schema) : Prop :=
  ∀ s ∈ schemas, s.foreignKeys ≠ [] → ∀ u ∈ schemas, ∀ f ∈ u.foreignKeys, f.table ≠ s.name

instance (schemas : List Schema) : Decidable (Shallow schemas) :=
  inferInstanceAs (Decidable (∀ s ∈ schemas, _))

theorem not_refersTo_of_nil {s : Schema} (h : s.foreignKeys = []) (deleted : Database V)
    (row : Tuple V) : ¬s.RefersTo deleted row := by
  rintro ⟨f, hf, -⟩
  rw [h] at hf
  cases hf

namespace Database

/-- The cascade has come to its end. -/
theorem size_referring_eq_zero_iff : size (referring deleted db) = 0 ↔
    ∀ t ∈ db, ∀ row ∈ t.rows, ¬t.schema.RefersTo deleted row := by
  rw [size_eq_zero_iff]
  simp [referring, Multiset.filter_eq_nil]

theorem kept_eq_self (h : ∀ t ∈ db, ∀ row ∈ t.rows, ¬t.schema.RefersTo deleted row) :
    kept deleted db = db := by
  unfold kept
  refine (List.map_congr_left fun t ht => ?_).trans (List.map_id db)
  rw [Multiset.filter_eq_self.2 (h t ht), id]

/-- Where the tables that are referred to refer to nothing, the cascade is one step deep. -/
theorem cascade_of_shallow (h : Shallow (db.map Relation.schema)) :
    cascade deleted db = kept deleted db := by
  rw [cascade]
  split
  · rename_i hsize
    rw [kept_eq_self (size_referring_eq_zero_iff.1 hsize)]
  · rw [cascade, if_pos]
    rw [size_referring_eq_zero_iff]
    rintro u hu row - ⟨f, hf, t, ht, hname, r, hr, -⟩
    obtain ⟨child, hchild, rfl⟩ := List.mem_map.1 hu
    obtain ⟨parent, hparent, rfl⟩ := List.mem_map.1 ht
    refine h _ (List.mem_map_of_mem hparent) (fun hnil => ?_) _ (List.mem_map_of_mem hchild) f hf
      hname.symm
    exact not_refersTo_of_nil hnil deleted r (Multiset.mem_filter.1 hr).2

end Database

end Cascade

/-- What is left of a table, when rows of others are deleted. -/
def Relation.keep (foreignKeys : Bool) (deleted : Database V) (t : Relation V) : Relation V :=
  { t with
    rows := if foreignKeys then t.rows.filter fun row => ¬t.schema.RefersTo deleted row
      else t.rows }

/-- A table that refers to nothing is kept. -/
theorem keep_of_nil {t : Relation V} (h : t.schema.foreignKeys = []) (foreignKeys : Bool)
    (deleted : Database V) : t.keep foreignKeys deleted = t := by
  unfold Relation.keep
  cases foreignKeys with
  | false => rfl
  | true =>
    have hall := Multiset.filter_eq_self.2 fun row (_ : row ∈ t.rows) =>
      not_refersTo_of_nil h deleted row
    rw [if_pos rfl, hall]

/-! ## Steps -/

section Steps

variable {foreignKeys : Bool} {db : Database V}

theorem run_append (foreignKeys : Bool) (script script' : List Statement) (db : Database V) :
    run foreignKeys (script ++ script') db =
      (run foreignKeys script db).bind (run foreignKeys script') :=
  List.foldlM_append

theorem run_cons {statement : Statement} {db' : Database V}
    (h : statement.exec foreignKeys db = some db') (script : List Statement) :
    run foreignKeys (statement :: script) db = run foreignKeys script db' := by
  unfold run
  rw [List.foldlM_cons, h]
  rfl

/-- Rows are accepted into an empty table if each has what may not be null, no key is listed
twice, and what is referred to is there. -/
theorem accepts_map {R : Type} {values : R → Tuple V} {rows : List R} {t : Relation V}
    (ht : t.rows = 0)
    (hnull : ∀ r, ∀ c ∈ t.schema.columns, c.notNull = true →
      t.schema.value (values r) c.name ≠ none)
    (hkey : (rows.map fun r => t.schema.value (values r) t.schema.primaryKey).Nodup)
    (hrefers : ∀ r ∈ rows, ∀ f ∈ t.schema.foreignKeys,
      f.Finds db (t.schema.value (values r) f.column)) :
    Accepts foreignKeys db t ↑(rows.map values) := by
  refine ⟨fun row hrow => ?_, ?_, fun _ row hrow f hf _ => ?_⟩
  · obtain ⟨r, -, rfl⟩ := List.mem_map.1 (Multiset.mem_coe.1 hrow)
    exact hnull r
  · rw [ht, zero_add, Multiset.map_coe, List.map_map]
    exact Multiset.coe_nodup.2 hkey
  · obtain ⟨r, hr, rfl⟩ := List.mem_map.1 (Multiset.mem_coe.1 hrow)
    exact hrefers r hr f hf

/-- An empty table is filled with rows whose columns are all given. -/
theorem exec_insertSelect {R : Type} {values : R → Tuple V} {rows : List R} (schema : Schema)
    {columns : List String} {select : Select} (ht : db.find schema.name = some ⟨schema, 0⟩)
    (hselect : select.eval db = some ↑(rows.map values))
    (hfill : ∀ r, schema.fill columns (values r) = values r)
    (haccepts : Accepts foreignKeys db ⟨schema, 0⟩ ↑(rows.map values)) :
    Statement.exec foreignKeys db (.insertSelect schema.name columns select) =
      some (db.map fun u => if u.schema.name = schema.name then
        { u with rows := u.rows + ↑(rows.map values) } else u) := by
  have hmap : (↑(rows.map values) : Multiset (Tuple V)).map (schema.fill columns) =
      ↑(rows.map values) := by
    rw [Multiset.map_coe, List.map_map]
    exact congrArg _ (List.map_congr_left fun r _ => hfill r)
  rw [Statement.exec, ht, hselect]
  simp only [Option.bind_eq_bind, Option.bind_some, hmap]
  exact if_pos haccepts

/-- A table that is dropped takes with it the rows that refer to its own. -/
theorem exec_dropTable {table : String} {t : Relation V} (ht : db.find table = some t)
    (h : Shallow (db.map Relation.schema)) :
    Statement.exec foreignKeys db (.dropTable table) =
      some ((db.filter fun u => u.schema.name ≠ table).map (Relation.keep foreignKeys [t])) := by
  rw [Statement.exec, ht]
  simp only [Option.bind_eq_bind, Option.bind_some, Option.pure_def, Option.some_inj]
  cases foreignKeys with
  | false => exact (List.map_id _).symm
  | true =>
    rw [if_pos rfl, Database.cascade_of_shallow h, Database.kept, List.filter_map]
    rfl

end Steps

end Exec

end Ddl
