import Websub.Db
import Websub.Lib.Ddl

/-!
# The migration that drops `active_subscriptions`

The scripts of `2021-11-20-222955_drop_active_subscriptions`, statement by statement. Before it,
the expiries of the active subscriptions are in a table of their own, which refers to
`subscriptions` and is deleted in cascade. After it, they are a column.

What the migration is for is to merge two tables, or to split one (`OldTables.merge`,
`Subscriptions.split`), and one undoes the other (`merge_split`, `database_split_merge`).
`up.sql` does merge, as it reads both tables before it drops the one that is referred to
(`run_up`). `down.sql` drops it after it has filled the table that refers to it : where foreign
keys are enforced, the cascade empties that table, and no subscription is active any more
(`run_down`). `restored_iff` is what this means for a way there and back.
-/

namespace Websub

open Tables Ddl

/-! ## The scripts -/

/-- A value of a column. -/
inductive Value
  | integer (n : Int64)
  | text (s : String)
deriving DecidableEq

/-- `subscriptions`, as the migration finds it. -/
def oldSchema (name : String) : Schema where
  name
  columns := [⟨"id", true⟩, ⟨"hub", true⟩, ⟨"topic", true⟩, ⟨"secret", true⟩]
  primaryKey := "id"
  foreignKeys := []

/-- `active_subscriptions`. -/
def activeSchema : Schema where
  name := "active_subscriptions"
  columns := [⟨"id", true⟩, ⟨"expires_at", true⟩]
  primaryKey := "id"
  foreignKeys := [⟨"id", "subscriptions", "id"⟩]

/-- `subscriptions`, as the migration leaves it. -/
def mergedSchema (name : String) : Schema where
  name
  columns := [⟨"id", true⟩, ⟨"hub", true⟩, ⟨"topic", true⟩, ⟨"secret", true⟩,
    ⟨"expires_at", false⟩]
  primaryKey := "id"
  foreignKeys := []

/-- The query of `up.sql`. -/
def selectMerged : Select where
  columns := [⟨some "subscriptions", "id"⟩, ⟨none, "hub"⟩, ⟨none, "topic"⟩, ⟨none, "secret"⟩,
    ⟨none, "expires_at"⟩]
  source := "subscriptions"
  leftOuterJoin := some ("active_subscriptions", ⟨some "subscriptions", "id"⟩,
    ⟨some "active_subscriptions", "id"⟩)
  isNotNull := none

/-- `up.sql`. -/
def up : List Statement :=
  [.createTable (mergedSchema "subscriptions_new"),
    .insertSelect "subscriptions_new" ["id", "hub", "topic", "secret", "expires_at"] selectMerged,
    .dropTable "subscriptions",
    .renameTable "subscriptions_new" "subscriptions",
    .dropTable "active_subscriptions"]

/-- The first query of `down.sql`. -/
def selectOld : Select where
  columns := [⟨none, "id"⟩, ⟨none, "hub"⟩, ⟨none, "topic"⟩, ⟨none, "secret"⟩]
  source := "subscriptions"
  leftOuterJoin := none
  isNotNull := none

/-- The second query of `down.sql`. -/
def selectActive : Select where
  columns := [⟨none, "id"⟩, ⟨none, "expires_at"⟩]
  source := "subscriptions"
  leftOuterJoin := none
  isNotNull := some ⟨none, "expires_at"⟩

/-- `down.sql`. -/
def down : List Statement :=
  [.createTable activeSchema,
    .createTable (oldSchema "subscriptions_new"),
    .insertSelect "subscriptions_new" ["id", "hub", "topic", "secret"] selectOld,
    .insertSelect "active_subscriptions" ["id", "expires_at"] selectActive,
    .dropTable "subscriptions",
    .renameTable "subscriptions_new" "subscriptions"]

/-! ## The contents -/

/-- A row of `subscriptions` before the migration. -/
structure OldRow where
  id : Int64
  hub : String
  topic : String
  secret : String
deriving DecidableEq

/-- A row of `active_subscriptions`. -/
structure ActiveRow where
  id : Int64
  expiresAt : Int64
deriving DecidableEq

/-- The tables before the migration. An active id refers to a subscription. -/
structure OldTables where
  subscriptions : Table OldRow.id
  active : Table ActiveRow.id
  refers : ∀ a ∈ active, ∃ r ∈ subscriptions, r.id = a.id

def OldRow.values (r : OldRow) : Tuple Value :=
  [some (.integer r.id), some (.text r.hub), some (.text r.topic), some (.text r.secret)]

def ActiveRow.values (a : ActiveRow) : Tuple Value :=
  [some (.integer a.id), some (.integer a.expiresAt)]

def Row.values (r : Row) : Tuple Value :=
  [some (.integer r.id), some (.text r.hub), some (.text r.topic), some (.text r.secret),
    r.expiresAt.map .integer]

def oldRelation (name : String) (rows : List OldRow) : Relation Value :=
  ⟨oldSchema name, ↑(rows.map OldRow.values)⟩

def activeRelation (rows : List ActiveRow) : Relation Value :=
  ⟨activeSchema, ↑(rows.map ActiveRow.values)⟩

def mergedRelation (name : String) (rows : List Row) : Relation Value :=
  ⟨mergedSchema name, ↑(rows.map Row.values)⟩

/-- The tables before the migration, in the order in which `down.sql` leaves them. -/
def OldTables.database (c : OldTables) : Database Value :=
  [activeRelation c.active.rows, oldRelation "subscriptions" c.subscriptions.rows]

/-- The table after the migration. -/
def Subscriptions.database (t : Subscriptions) : Database Value :=
  [mergedRelation "subscriptions" t.rows]

/-! ## What the migration is for -/

/-- The row with its expiry. -/
def OldRow.merge (r : OldRow) (expiresAt : Option Int64) : Row :=
  ⟨r.id, r.hub, r.topic, r.secret, expiresAt⟩

/-- The row without its expiry. -/
def Row.old (r : Row) : OldRow :=
  ⟨r.id, r.hub, r.topic, r.secret⟩

/-- The row of an active subscription. -/
def Row.active (r : Row) : Option ActiveRow :=
  r.expiresAt.map fun e => ⟨r.id, e⟩

namespace OldTables

/-- The expiry of an id, null if it is not active. -/
def expiry (c : OldTables) (id : Int64) : Option Int64 :=
  (c.active.lookup id).map ActiveRow.expiresAt

/-- One table, with the expiries. -/
def merge (c : OldTables) : Subscriptions :=
  ⟨c.subscriptions.rows.map fun r => r.merge (c.expiry r.id), by
    rw [List.map_map]
    exact c.subscriptions.nodup⟩

/-- Nothing is active. -/
def deactivate (c : OldTables) : OldTables :=
  ⟨c.subscriptions, ⟨[], List.nodup_nil⟩, fun _ h => absurd h List.not_mem_nil⟩

end OldTables

theorem Row.id_of_mem_active {r : Row} {a : ActiveRow} (h : a ∈ r.active) : a.id = r.id := by
  obtain ⟨e, -, rfl⟩ := Option.map_eq_some_iff.1 h
  rfl

theorem map_id_filterMap_active (rows : List Row) :
    (rows.filterMap Row.active).map ActiveRow.id =
      (rows.filter fun r => r.expiresAt.isSome).map Row.id := by
  induction rows with
  | nil => rfl
  | cons r rows ih => cases hr : r.expiresAt <;> simp [Row.active, hr, ← ih]

namespace Subscriptions

/-- Two tables, the expiries apart. -/
def split (t : Subscriptions) : OldTables where
  subscriptions := ⟨t.rows.map Row.old, by
    rw [List.map_map]
    exact t.nodup⟩
  active := ⟨t.rows.filterMap Row.active, by
    rw [map_id_filterMap_active]
    exact t.nodup.sublist (List.filter_sublist.map _)⟩
  refers := by
    intro a ha
    obtain ⟨r, hr, hactive⟩ := List.mem_filterMap.1 ha
    exact ⟨r.old, List.mem_map_of_mem hr, (Row.id_of_mem_active hactive).symm⟩

end Subscriptions

section Laws

variable {c : OldTables} {t : Subscriptions}

theorem expiry_eq_some_iff {id e : Int64} :
    c.expiry id = some e ↔ (⟨id, e⟩ : ActiveRow) ∈ c.active := by
  unfold OldTables.expiry
  simp only [Option.map_eq_some_iff, Table.lookup_eq_some_iff]
  constructor
  · rintro ⟨a, ⟨ha, rfl⟩, rfl⟩
    exact ha
  · intro h
    exact ⟨_, ⟨h, rfl⟩, rfl⟩

theorem mem_active_split {a : ActiveRow} :
    a ∈ t.split.active ↔ ∃ r ∈ t, r.id = a.id ∧ r.expiresAt = some a.expiresAt := by
  unfold Subscriptions.split
  rw [Table.mem_def, List.mem_filterMap]
  refine exists_congr fun r => and_congr_right fun _ => ?_
  cases hr : r.expiresAt <;> cases a <;> simp [Row.active, hr]

theorem expiry_split {r : Row} (hr : r ∈ t) : t.split.expiry r.id = r.expiresAt := by
  refine Option.ext fun e => ?_
  rw [expiry_eq_some_iff, mem_active_split]
  constructor
  · rintro ⟨r', hr', hid, he⟩
    rwa [Table.eq_of_key hr' hr hid] at he
  · intro he
    exact ⟨r, hr, rfl, he⟩

theorem rows_merge (c : OldTables) :
    c.merge.rows = c.subscriptions.rows.map fun r => r.merge (c.expiry r.id) :=
  rfl

theorem rows_split (t : Subscriptions) : t.split.subscriptions.rows = t.rows.map Row.old :=
  rfl

/-- Merging undoes splitting. -/
theorem merge_split (t : Subscriptions) : t.split.merge = t := by
  refine Table.ext ?_
  rw [rows_merge, rows_split, List.map_map]
  refine (List.map_congr_left fun r hr => ?_).trans (List.map_id _)
  have he : t.split.expiry r.id = r.expiresAt := expiry_split hr
  exact congrArg r.old.merge he

theorem mem_merge {r : Row} :
    r ∈ c.merge ↔ r.old ∈ c.subscriptions ∧ r.expiresAt = c.expiry r.id := by
  unfold OldTables.merge
  rw [Table.mem_def, List.mem_map]
  constructor
  · rintro ⟨s, hs, rfl⟩
    exact ⟨hs, rfl⟩
  · rintro ⟨hr, he⟩
    refine ⟨_, hr, ?_⟩
    exact congrArg r.old.merge he.symm

theorem mem_active_split_merge {a : ActiveRow} : a ∈ c.merge.split.active ↔ a ∈ c.active := by
  rw [mem_active_split]
  constructor
  · rintro ⟨r, hr, hid, he⟩
    rw [(mem_merge.1 hr).2, expiry_eq_some_iff, hid] at he
    exact he
  · intro ha
    obtain ⟨s, hs, hid⟩ := c.refers a ha
    have he : c.expiry s.id = some a.expiresAt := expiry_eq_some_iff.2 (hid ▸ ha)
    exact ⟨s.merge (c.expiry s.id), mem_merge.2 ⟨hs, rfl⟩, hid, he⟩

theorem rows_split_merge (c : OldTables) :
    c.merge.split.subscriptions.rows = c.subscriptions.rows := by
  rw [rows_split, rows_merge, List.map_map]
  exact List.map_id _

/-- Splitting undoes merging. -/
theorem database_split_merge (c : OldTables) : c.merge.split.database = c.database := by
  have hactive : c.merge.split.active.rows.Perm c.active.rows :=
    (List.perm_ext_iff_of_nodup c.merge.split.active.nodup.of_map c.active.nodup.of_map).2
      fun _ => mem_active_split_merge
  unfold OldTables.database activeRelation
  rw [rows_split_merge, Multiset.coe_eq_coe.2 (hactive.map _)]

end Laws

/-! ## What the scripts do -/

section Runs

variable (c : OldTables) (t : Subscriptions)

/-- The join finds the expiry, or null. -/
theorem map_joinRow (r : OldRow) :
    (joinRow 2 0 4 ↑(c.active.rows.map ActiveRow.values) r.values).map
        (fun row => [0, 1, 2, 3, 5].map fun i => row.getD i none) =
      {(r.merge (c.expiry r.id)).values} := by
  have hrows : ((↑(c.active.rows.map ActiveRow.values) : Multiset (Tuple Value)).map
      (r.values ++ ·)).filter (fun row => (Sql.eq (row.getD 0 none) (row.getD 4 none)).holds) =
        ↑((c.active.lookup r.id).toList.map fun a => r.values ++ a.values) := by
    have hkey (a : ActiveRow) :
        (Sql.eq ((r.values ++ a.values).getD 0 none) ((r.values ++ a.values).getD 4 none)).holds =
          decide (a.id = r.id) := by
      refine (Sql.holds_eq (Value.integer r.id) (Value.integer a.id)).trans ?_
      rw [decide_eq_decide, Value.integer.injEq, eq_comm]
    rw [← Table.select_key, Multiset.map_coe, Multiset.filter_coe, List.map_map, List.filter_map]
    simp only [Function.comp_def, hkey, decide_eq_true_eq]
    rfl
  unfold joinRow
  rw [hrows]
  cases hlookup : c.active.lookup r.id with
  | none =>
    have he : c.expiry r.id = none := by
      unfold OldTables.expiry
      rw [hlookup, Option.map_none]
    rw [he]
    rfl
  | some a =>
    have he : c.expiry r.id = some a.expiresAt := by
      unfold OldTables.expiry
      rw [hlookup, Option.map_some]
    rw [he]
    rfl

theorem eval_selectMerged :
    selectMerged.eval (c.database ++ [mergedRelation "subscriptions_new" []]) =
      some ↑(c.merge.rows.map Row.values) := by
  have heval : selectMerged.eval (c.database ++ [mergedRelation "subscriptions_new" []]) =
      some (((↑(c.subscriptions.rows.map OldRow.values) : Multiset (Tuple Value)).bind
        (joinRow 2 0 4 ↑(c.active.rows.map ActiveRow.values))).map
          fun row => [0, 1, 2, 3, 5].map fun i => row.getD i none) := rfl
  rw [heval, ← Multiset.map_coe, Multiset.bind_map, Multiset.map_bind]
  simp only [map_joinRow, Multiset.bind_singleton, Multiset.map_coe]
  rw [rows_merge, List.map_map]
  rfl

/-- Different ids are different keys. -/
theorem nodup_keys {R : Type} {id : R → Int64} {rows : List R} (h : (rows.map id).Nodup) :
    (rows.map fun r => some (Value.integer (id r))).Nodup := by
  have hinj : Function.Injective fun n : Int64 => some (Value.integer n) :=
    fun _ _ h => Value.integer.inj (Option.some_inj.1 h)
  have hmap := h.map hinj
  rwa [List.map_map] at hmap

theorem accepts_merged (foreignKeys : Bool) (db : Database Value) (name : String) :
    Accepts foreignKeys db ⟨mergedSchema name, 0⟩ ↑(t.rows.map Row.values) := by
  refine accepts_map rfl (fun r => ?_) (nodup_keys t.nodup) fun _ _ f hf =>
    absurd hf List.not_mem_nil
  simp [mergedSchema, Schema.value, Row.values, List.idxOf?_cons]

theorem accepts_old (foreignKeys : Bool) (db : Database Value) (name : String) :
    Accepts foreignKeys db ⟨oldSchema name, 0⟩ ↑(c.subscriptions.rows.map OldRow.values) := by
  refine accepts_map rfl (fun r => ?_) (nodup_keys c.subscriptions.nodup) fun _ _ f hf =>
    absurd hf List.not_mem_nil
  simp [oldSchema, Schema.value, OldRow.values, List.idxOf?_cons]

/-- Enforced or not, `up.sql` merges the tables. -/
theorem run_up (foreignKeys : Bool) : run foreignKeys up c.database = some c.merge.database := by
  have hcreate : Statement.exec foreignKeys c.database
      (.createTable (mergedSchema "subscriptions_new")) =
        some (c.database ++ [mergedRelation "subscriptions_new" []]) := rfl
  have hinsert : Statement.exec foreignKeys (c.database ++ [mergedRelation "subscriptions_new" []])
      (.insertSelect "subscriptions_new" ["id", "hub", "topic", "secret", "expires_at"]
        selectMerged) =
      some (c.database ++ [mergedRelation "subscriptions_new" c.merge.rows]) :=
    exec_insertSelect (mergedSchema "subscriptions_new") rfl (eval_selectMerged c) (fun _ => rfl)
      (accepts_merged c.merge foreignKeys _ _)
  -- What is left of the active rows here does not matter, as their table is dropped too.
  have hdrop : ∃ rows, Statement.exec foreignKeys
      (c.database ++ [mergedRelation "subscriptions_new" c.merge.rows])
      (.dropTable "subscriptions") =
      some [⟨activeSchema, rows⟩, mergedRelation "subscriptions_new" c.merge.rows] := by
    have hshallow : Shallow [activeSchema, oldSchema "subscriptions",
        mergedSchema "subscriptions_new"] := by decide
    refine ⟨_, (exec_dropTable rfl ?_).trans
      (congrArg (fun t => some [_, t]) (keep_of_nil rfl foreignKeys _))⟩
    exact hshallow
  have hrename (rows : Multiset (Tuple Value)) : Statement.exec foreignKeys
      [⟨activeSchema, rows⟩, mergedRelation "subscriptions_new" c.merge.rows]
      (.renameTable "subscriptions_new" "subscriptions") =
      some [⟨activeSchema, rows⟩, mergedRelation "subscriptions" c.merge.rows] := rfl
  have hdropActive (rows : Multiset (Tuple Value)) : Statement.exec foreignKeys
      [⟨activeSchema, rows⟩, mergedRelation "subscriptions" c.merge.rows]
      (.dropTable "active_subscriptions") = some c.merge.database := by
    have hshallow : Shallow [activeSchema, mergedSchema "subscriptions"] := by decide
    refine (exec_dropTable rfl ?_).trans
      (congrArg (fun t => some [t]) (keep_of_nil rfl foreignKeys _))
    exact hshallow
  obtain ⟨rows, hdrop⟩ := hdrop
  unfold up
  rw [run_cons hcreate, run_cons hinsert, run_cons hdrop, run_cons (hrename rows),
    run_cons (hdropActive rows)]
  rfl

/-- An active row refers to the row that it is from. -/
theorem finds_of_mem_active {db : Database Value}
    (hdb : mergedRelation "subscriptions" t.rows ∈ db) {a : ActiveRow}
    (ha : a ∈ t.split.active.rows) :
    ForeignKey.Finds ⟨"id", "subscriptions", "id"⟩ db (some (.integer a.id)) := by
  obtain ⟨r, hr, hid, -⟩ := mem_active_split.1 ha
  refine ⟨_, hdb, rfl, r.values, List.mem_map_of_mem hr, ?_⟩
  refine (Sql.holds_eq (Value.integer a.id) (Value.integer r.id)).trans ?_
  rw [hid, decide_eq_true_iff]

theorem accepts_active (foreignKeys : Bool) {db : Database Value}
    (hdb : mergedRelation "subscriptions" t.rows ∈ db) :
    Accepts foreignKeys db ⟨activeSchema, 0⟩ ↑(t.split.active.rows.map ActiveRow.values) := by
  refine accepts_map rfl (fun a => ?_) (nodup_keys t.split.active.nodup) fun a ha f hf => ?_
  · simp [activeSchema, Schema.value, ActiveRow.values, List.idxOf?_cons]
  · obtain rfl := List.mem_singleton.1 hf
    exact finds_of_mem_active t hdb ha

theorem eval_selectOld (db : Database Value) :
    selectOld.eval (mergedRelation "subscriptions" t.rows :: db) =
      some ↑(t.split.subscriptions.rows.map OldRow.values) := by
  have heval : selectOld.eval (mergedRelation "subscriptions" t.rows :: db) =
      some ((↑(t.rows.map Row.values) : Multiset (Tuple Value)).map
        fun row => [0, 1, 2, 3].map fun i => row.getD i none) := rfl
  rw [heval, Multiset.map_coe, List.map_map, rows_split, List.map_map]
  rfl

theorem map_values_filterMap_active (rows : List Row) :
    ((rows.map Row.values).filter fun row => (Sql.isNotNull (row.getD 4 none)).holds).map
        (fun row => [0, 4].map fun i => row.getD i none) =
      (rows.filterMap Row.active).map ActiveRow.values := by
  induction rows with
  | nil => rfl
  | cons r rows ih =>
    cases hr : r.expiresAt <;> simp_all [Row.active, Row.values, ActiveRow.values]

theorem eval_selectActive (db : Database Value) :
    selectActive.eval (mergedRelation "subscriptions" t.rows :: db) =
      some ↑(t.split.active.rows.map ActiveRow.values) := by
  have heval : selectActive.eval (mergedRelation "subscriptions" t.rows :: db) =
      some (((↑(t.rows.map Row.values) : Multiset (Tuple Value)).filter
        fun row => (Sql.isNotNull (row.getD 4 none)).holds).map
          fun row => [0, 4].map fun i => row.getD i none) := rfl
  rw [heval, Multiset.filter_coe, Multiset.map_coe]
  simp only [Bool.decide_eq_true, map_values_filterMap_active]
  rfl

/-- The cascade empties the table that was filled. -/
theorem keep_active (foreignKeys : Bool) :
    (activeRelation t.split.active.rows).keep foreignKeys [mergedRelation "subscriptions" t.rows] =
      activeRelation (if foreignKeys then [] else t.split.active.rows) := by
  cases foreignKeys with
  | false => rfl
  | true =>
    have hnone : ((↑(t.split.active.rows.map ActiveRow.values) : Multiset (Tuple Value)).filter
        fun row => ¬activeSchema.RefersTo [mergedRelation "subscriptions" t.rows] row) = 0 := by
      refine Multiset.filter_eq_nil.2 fun row hrow hnot => hnot ?_
      obtain ⟨a, ha, rfl⟩ := List.mem_map.1 (Multiset.mem_coe.1 hrow)
      exact ⟨_, List.mem_singleton_self _,
        finds_of_mem_active t (List.mem_singleton_self _) ha⟩
    exact congrArg (Relation.mk activeSchema) hnone

/-- `down.sql` splits the table, but leaves nothing active if foreign keys are enforced. -/
theorem run_down (foreignKeys : Bool) : run foreignKeys down t.database =
    some (if foreignKeys then t.split.deactivate else t.split).database := by
  have hcreate : Statement.exec foreignKeys t.database (.createTable activeSchema) =
      some [mergedRelation "subscriptions" t.rows, activeRelation []] := rfl
  have hcreateOld : Statement.exec foreignKeys
      [mergedRelation "subscriptions" t.rows, activeRelation []]
      (.createTable (oldSchema "subscriptions_new")) =
      some [mergedRelation "subscriptions" t.rows, activeRelation [],
        oldRelation "subscriptions_new" []] := rfl
  have hinsert : Statement.exec foreignKeys
      [mergedRelation "subscriptions" t.rows, activeRelation [],
        oldRelation "subscriptions_new" []]
      (.insertSelect "subscriptions_new" ["id", "hub", "topic", "secret"] selectOld) =
      some [mergedRelation "subscriptions" t.rows, activeRelation [],
        oldRelation "subscriptions_new" t.split.subscriptions.rows] :=
    exec_insertSelect (oldSchema "subscriptions_new") rfl (eval_selectOld t _) (fun _ => rfl)
      (accepts_old t.split foreignKeys _ _)
  have hinsertActive : Statement.exec foreignKeys
      [mergedRelation "subscriptions" t.rows, activeRelation [],
        oldRelation "subscriptions_new" t.split.subscriptions.rows]
      (.insertSelect "active_subscriptions" ["id", "expires_at"] selectActive) =
      some [mergedRelation "subscriptions" t.rows, activeRelation t.split.active.rows,
        oldRelation "subscriptions_new" t.split.subscriptions.rows] :=
    exec_insertSelect activeSchema rfl (eval_selectActive t _) (fun _ => rfl)
      (accepts_active t foreignKeys List.mem_cons_self)
  have hdrop : Statement.exec foreignKeys
      [mergedRelation "subscriptions" t.rows, activeRelation t.split.active.rows,
        oldRelation "subscriptions_new" t.split.subscriptions.rows]
      (.dropTable "subscriptions") =
      some [activeRelation (if foreignKeys then [] else t.split.active.rows),
        oldRelation "subscriptions_new" t.split.subscriptions.rows] := by
    have hshallow : Shallow [mergedSchema "subscriptions", activeSchema,
        oldSchema "subscriptions_new"] := by decide
    refine (exec_dropTable rfl ?_).trans
      (congrArg₂ (fun t u => some [t, u]) (keep_active t foreignKeys)
        (keep_of_nil rfl foreignKeys _))
    exact hshallow
  have hrename (rows : List ActiveRow) : Statement.exec foreignKeys
      [activeRelation rows, oldRelation "subscriptions_new" t.split.subscriptions.rows]
      (.renameTable "subscriptions_new" "subscriptions") =
      some [activeRelation rows, oldRelation "subscriptions" t.split.subscriptions.rows] := rfl
  unfold down
  rw [run_cons hcreate, run_cons hcreateOld, run_cons hinsert, run_cons hinsertActive,
    run_cons hdrop, run_cons (hrename _)]
  cases foreignKeys <;> rfl

theorem database_deactivate_iff :
    c.merge.split.deactivate.database = c.database ↔ c.active.rows = [] := by
  unfold OldTables.database OldTables.deactivate activeRelation
  rw [rows_split_merge]
  constructor
  · intro h
    have hrows := (Relation.mk.inj (List.cons.inj h).1).2
    rw [List.map_nil, Multiset.coe_nil, eq_comm, Multiset.coe_eq_zero, List.map_eq_nil_iff] at hrows
    exact hrows
  · intro h
    rw [h]

theorem rows_merge_deactivate :
    t.split.deactivate.merge.rows = t.rows.map fun r => { r with expiresAt := none } := by
  rw [rows_merge]
  exact List.map_map

theorem database_merge_deactivate_iff :
    t.split.deactivate.merge.database = t.database ↔ ∀ r ∈ t, r.expiresAt = none := by
  unfold Subscriptions.database mergedRelation
  rw [rows_merge_deactivate]
  constructor
  · intro h r hr
    have hrows := (Relation.mk.inj (List.cons.inj h).1).2
    have hmem : r.values ∈ (↑(t.rows.map Row.values) : Multiset (Tuple Value)) :=
      List.mem_map_of_mem hr
    rw [← hrows, Multiset.mem_coe, List.map_map] at hmem
    obtain ⟨s, -, hs⟩ := List.mem_map.1 hmem
    cases he : r.expiresAt with
    | none => rfl
    | some e => simp [Row.values, he] at hs
  · intro h
    have hmap : (t.rows.map fun r => { r with expiresAt := none }) = t.rows := by
      refine (List.map_congr_left fun r hr => ?_).trans (List.map_id _)
      rw [← h r hr, id]
    rw [hmap]

end Runs

/-- Up and down restores the tables, and down and up restores the table, exactly if foreign keys
are not enforced or nothing is active. -/
theorem restored_iff (foreignKeys : Bool) :
    (∀ c : OldTables, run foreignKeys (up ++ down) c.database = some c.database ↔
      foreignKeys = false ∨ c.active.rows = []) ∧
    ∀ t : Subscriptions, run foreignKeys (down ++ up) t.database = some t.database ↔
      foreignKeys = false ∨ ∀ r ∈ t, r.expiresAt = none := by
  constructor
  · intro c
    rw [run_append, run_up, Option.bind_some, run_down, Option.some_inj]
    cases foreignKeys with
    | false => simpa using database_split_merge c
    | true => simpa using database_deactivate_iff c
  · intro t
    rw [run_append, run_down, Option.bind_some, run_up, Option.some_inj]
    cases foreignKeys with
    | false => simp [merge_split]
    | true => simpa using database_merge_deactivate_iff t

/-- One subscription, which is active. -/
def confirmedStore : Subscriptions :=
  ⟨[⟨1, "http://example.com/hub", "topic", "secret", some 1700000000⟩], by decide⟩

/-- Its expiry is lost where foreign keys are enforced. -/
theorem not_restored_confirmed :
    run true (up ++ down) confirmedStore.split.database ≠ some confirmedStore.split.database ∧
      run true (down ++ up) confirmedStore.database ≠ some confirmedStore.database := by
  constructor
  · rw [run_append, run_up, Option.bind_some, run_down, Ne, Option.some_inj, if_pos rfl,
      database_deactivate_iff]
    decide
  · rw [run_append, run_down, Option.bind_some, run_up, Ne, Option.some_inj, if_pos rfl,
      database_merge_deactivate_iff]
    intro h
    exact absurd (h _ (List.mem_singleton_self _)) (Option.some_ne_none _)

end Websub
