import Websub.Connection

/-!
# The Diesel back ends

`db/diesel1.rs` and `db/diesel2.rs`, and what they take of Diesel. The back ends differ in
how they turn the `i64` of a row into the `u64` of an id, and in how they read the next
expiry : the first selects a nullable column and flattens what it gets, the second assumes
that the column is not null and takes the first row of the result.

A `Plan` is how a database carries out queries : the scan of each meets the rows in some
order. Under every two plans the back ends agree, and both refine the map of ids to
subscriptions (`backends_agree`).
-/

namespace Websub

open Tables Programs Sql

/-! ## Diesel -/

/-- How a database carries out queries. -/
structure Plan where
  /-- The order in which the `n`-th query meets the rows. -/
  scan : ℕ → List Row → List Row
  perm : ∀ n rows, (scan n rows).Perm rows
  /-- Nulls come before the values of a column, and not behind them. -/
  nullsFirst : Bool

namespace Diesel

variable {α C D : Type}

/-- `Connection::transaction` : a closure that fails is rolled back. -/
def transaction (x : Conn α) : Conn α := fun s =>
  match x s with
  | (.ok a, s') => (.ok a, s')
  | (.error e, s') => (.error e, { s' with table := s.table })

/-- `RunQueryDsl::load`. -/
def load (plan : Plan) (q : Query Row C) : Conn (List C) := fun s =>
  (.ok (q.result (plan.scan s.queries s.table.rows)), { s with queries := s.queries + 1 })

/-- `RunQueryDsl::load_iter`, with what deserializes a row. -/
def loadIter (plan : Plan) (q : Query Row C) (build : C → Except DieselError D) :
    Conn (List (Except DieselError D)) := do
  let rows ← load plan q
  pure (rows.map build)

/-- `RunQueryDsl::get_result`. -/
def getResult (plan : Plan) (q : Query Row C) : Conn C := do
  let rows ← load plan q
  match rows with
  | [] => Prog.stop .notFound
  | c :: _ => pure c

/-- `RunQueryDsl::first`. -/
def first (plan : Plan) (q : Query Row C) : Conn C :=
  getResult plan (q.take 1)

/-- `OptionalExtension::optional`. -/
def optional (x : Conn α) : Conn (Option α) := fun s =>
  match x s with
  | (.ok a, s') => (.ok (some a), s')
  | (.error .notFound, s') => (.ok none, s')
  | (.error e, s') => (.error e, s')

/-- `select(exists(query)).get_result`. -/
def selectExists (plan : Plan) (q : Query Row C) : Conn Bool := do
  let rows ← load plan q
  pure (!rows.isEmpty)

/-- `insert_into(table).values(row).execute`. -/
def insertInto (r : Row) : Conn ℕ := fun s =>
  match s.table.insert r with
  | some table => (.ok 1, { s with table })
  | none => (.error .uniqueViolation, s)

/-- `update(target).set(expires_at.eq(expires_at)).execute`. -/
def update (target : Query Row Row) (expiresAt : Option Int64) : Conn ℕ := fun s =>
  (.ok (s.table.select target.selects).length,
    { s with
      table := s.table.update target.selects (fun r => { r with expiresAt }) fun _ => rfl })

/-- `delete(target).execute`. -/
def delete (target : Query Row Row) : Conn ℕ := fun s =>
  (.ok (s.table.select target.selects).length,
    { s with table := s.table.delete target.selects })

/-- `QueryDsl::find`. -/
def find (q : Query Row C) (id : Int64) : Query Row C :=
  q.filter fun r => Sql.eq (some r.id) (some id)

/-- Collecting results into the result of a list. -/
def collect : List (Except DieselError α) → Conn (List α)
  | [] => pure []
  | .ok a :: results => do
    let l ← collect results
    pure (a :: l)
  | .error e :: _ => Prog.stop e

/-- `Option::transpose`. -/
def transpose : Option (Except DieselError α) → Conn (Option α)
  | none => pure none
  | some (.ok a) => pure (some a)
  | some (.error e) => Prog.stop e

/-- The loop of `create_subscription`. -/
def createLoop (hub topic secret : String) : List UInt64 → Conn UInt64
  | [] => Prog.stop .starved
  | id :: rng => fun s =>
    match insertInto ⟨id.toInt64, hub, topic, secret, none⟩ { s with rng } with
    | (.ok _, s') => (.ok id, s')
    | (.error .uniqueViolation, s') => createLoop hub topic secret rng s' -- retry
    | (.error e, s') => (.error e, s')

end Diesel

/-! ## The back end for Diesel 1 -/

namespace Diesel1

open Diesel

variable (plan : Plan)

/-- `Subscription` of `get_subscriptions_expire_before`, which has the layout of its field. -/
structure Subscription where
  ret : UInt64 × String × String

/-- `Subscription::build`. -/
def Subscription.build (row : Int64 × String × String) : Subscription :=
  ⟨row.1.toUInt64, row.2.1, row.2.2⟩

/-- The bits of an `i64` as those of a `u64`. -/
def cast (i : Int64) : UInt64 :=
  UInt64.ofBitVec i.toBitVec

def createSubscription (hub topic secret : String) : Conn UInt64 :=
  Diesel.transaction fun s => createLoop hub topic secret s.rng s

def getTopic (id : UInt64) : Conn (Option (String × String)) :=
  optional (getResult plan
    (find (Query.table.select fun r => (r.topic, r.secret)) id.toInt64))

def subscriptionExists (id : UInt64) (topic : String) : Conn Bool :=
  selectExists plan
    ((find .table id.toInt64).filter fun r => Sql.eq (some r.topic) (some topic))

def getSubscriptionsExpireBefore (before : Int64) : Conn (List (UInt64 × String × String)) := do
  let rows ← load plan
    ((Query.table.filter fun r => Sql.le r.expiresAt (some before)).select fun r =>
      (r.id, r.hub, r.topic))
  let vec := rows.map Subscription.build
  pure (vec.map Subscription.ret)

def getHubOfInactiveSubscription (id : UInt64) (topic : String) : Conn (Option String) :=
  optional (getResult plan
    ((((find .table id.toInt64).filter fun r => Sql.eq (some r.topic) (some topic)).filter fun r =>
      isNull r.expiresAt).select Row.hub))

def getOldSubscriptions (id : UInt64) (hub topic : String) : Conn (List UInt64) := do
  let vec ← load plan
    ((((Query.table.filter fun r => Sql.eq (some r.hub) (some hub)).filter fun r =>
      Sql.eq (some r.topic) (some topic)).filter fun r =>
        Sql.not (Sql.eq (some r.id) (some id.toInt64))).select Row.id)
  pure (vec.map cast)

def activateSubscription (id : UInt64) (expiresAt : Int64) : Conn Bool :=
  (· ≠ 0) <$> update (find .table id.toInt64) (some expiresAt)

def deactivateSubscriptionsExpireBefore (before : Int64) : Conn Unit :=
  (fun _ => ()) <$> update (Query.table.filter fun r => Sql.le r.expiresAt (some before)) none

def deleteSubscriptions (id : UInt64) : Conn Bool :=
  (· ≠ 0) <$> delete (find .table id.toInt64)

def getNextExpiry : Conn (Option Int64) :=
  Option.join <$> optional (first plan
    (((Query.table.select Row.expiresAt).filter fun r => isNotNull r.expiresAt).orderBy fun r s =>
      ascending plan.nullsFirst r.expiresAt s.expiresAt))

end Diesel1

/-- `ConnectionRef` for Diesel 1. -/
def diesel1 (plan : Plan) : ConnectionRef where
  transaction := Diesel.transaction
  createSubscription := Diesel1.createSubscription
  getTopic := Diesel1.getTopic plan
  subscriptionExists := Diesel1.subscriptionExists plan
  getSubscriptionsExpireBefore := Diesel1.getSubscriptionsExpireBefore plan
  getHubOfInactiveSubscription := Diesel1.getHubOfInactiveSubscription plan
  getOldSubscriptions := Diesel1.getOldSubscriptions plan
  activateSubscription := Diesel1.activateSubscription
  deactivateSubscriptionsExpireBefore := Diesel1.deactivateSubscriptionsExpireBefore
  deleteSubscriptions := Diesel1.deleteSubscriptions
  getNextExpiry := Diesel1.getNextExpiry plan

/-! ## The back end for Diesel 2 -/

namespace Diesel2

open Diesel

variable (plan : Plan)

/-- `transaction`, which passes the connection to its closure. -/
def transaction {α : Type} (x : Conn α) : Conn α :=
  Diesel.transaction x

/-- An `i64` of a column that is assumed to be not null. -/
def assumeNotNull : Option Int64 → Except DieselError Int64
  | some i => .ok i
  | none => .error .unexpectedNull

def createSubscription (hub topic secret : String) : Conn UInt64 :=
  transaction fun s => createLoop hub topic secret s.rng s

def getTopic (id : UInt64) : Conn (Option (String × String)) :=
  optional (getResult plan
    (find (Query.table.select fun r => (r.topic, r.secret)) id.toInt64))

def subscriptionExists (id : UInt64) (topic : String) : Conn Bool :=
  selectExists plan
    ((find .table id.toInt64).filter fun r => Sql.eq (some r.topic) (some topic))

def getSubscriptionsExpireBefore (before : Int64) : Conn (List (UInt64 × String × String)) := do
  let results ← loadIter plan
    ((Query.table.filter fun r => Sql.le r.expiresAt (some before)).select fun r =>
      (r.id, r.hub, r.topic)) .ok
  collect (results.map fun result => result.map fun row => (row.1.toUInt64, row.2.1, row.2.2))

def getHubOfInactiveSubscription (id : UInt64) (topic : String) : Conn (Option String) :=
  optional (getResult plan
    ((((find .table id.toInt64).filter fun r => Sql.eq (some r.topic) (some topic)).filter fun r =>
      isNull r.expiresAt).select Row.hub))

def getOldSubscriptions (id : UInt64) (hub topic : String) : Conn (List UInt64) := do
  let results ← loadIter plan
    ((((Query.table.filter fun r => Sql.eq (some r.hub) (some hub)).filter fun r =>
      Sql.eq (some r.topic) (some topic)).filter fun r =>
        Sql.not (Sql.eq (some r.id) (some id.toInt64))).select Row.id) .ok
  collect (results.map fun result => result.map Int64.toUInt64)

def activateSubscription (id : UInt64) (expiresAt : Int64) : Conn Bool :=
  (· ≠ 0) <$> update (find .table id.toInt64) (some expiresAt)

def deactivateSubscriptionsExpireBefore (before : Int64) : Conn Unit :=
  (fun _ => ()) <$> update (Query.table.filter fun r => Sql.le r.expiresAt (some before)) none

def deleteSubscriptions (id : UInt64) : Conn Bool :=
  (· ≠ 0) <$> delete (find .table id.toInt64)

def getNextExpiry : Conn (Option Int64) := do
  let results ← loadIter plan
    (((Query.table.filter fun r => isNotNull r.expiresAt).select Row.expiresAt).orderBy fun r s =>
      ascending plan.nullsFirst r.expiresAt s.expiresAt) assumeNotNull
  transpose results.head?

end Diesel2

/-- `ConnectionRef` for Diesel 2. -/
def diesel2 (plan : Plan) : ConnectionRef where
  transaction := Diesel2.transaction
  createSubscription := Diesel2.createSubscription
  getTopic := Diesel2.getTopic plan
  subscriptionExists := Diesel2.subscriptionExists plan
  getSubscriptionsExpireBefore := Diesel2.getSubscriptionsExpireBefore plan
  getHubOfInactiveSubscription := Diesel2.getHubOfInactiveSubscription plan
  getOldSubscriptions := Diesel2.getOldSubscriptions plan
  activateSubscription := Diesel2.activateSubscription
  deactivateSubscriptionsExpireBefore := Diesel2.deactivateSubscriptionsExpireBefore
  deleteSubscriptions := Diesel2.deleteSubscriptions
  getNextExpiry := Diesel2.getNextExpiry plan

/-! ## What the statements do -/

section Statements

variable {plan : Plan} {s : Session} {t : Subscriptions} {C D : Type}

/-- The session after a query. -/
def Session.next (s : Session) : Session :=
  { s with queries := s.queries + 1 }

/-- The rows in the order of a scan. -/
def Session.scan (s : Session) (plan : Plan) : List Row :=
  plan.scan s.queries s.table.rows

theorem mem_scan {r : Row} : r ∈ s.scan plan ↔ r ∈ s.table :=
  (plan.perm _ _).mem_iff

theorem load_eq (q : Query Row C) :
    Diesel.load plan q s = (.ok (q.result (s.scan plan)), s.next) :=
  rfl

theorem loadIter_eq (q : Query Row C) (build : C → Except DieselError D) :
    Diesel.loadIter plan q build s = (.ok ((q.result (s.scan plan)).map build), s.next) :=
  rfl

theorem optional_getResult (q : Query Row C) :
    Diesel.optional (Diesel.getResult plan q) s = (.ok (q.result (s.scan plan)).head?, s.next) := by
  unfold Diesel.optional Diesel.getResult
  rw [Prog.bind_of_ok (load_eq q)]
  cases q.result (s.scan plan) <;> rfl

theorem transaction_of_ok {α : Type} {x : Conn α} {a : α} {s' : Session}
    (h : x s = (.ok a, s')) : Diesel.transaction x s = (.ok a, s') := by
  rw [Diesel.transaction, h]

theorem transaction_of_error {α : Type} {x : Conn α} {e : DieselError} {s' : Session}
    (h : x s = (.error e, s')) :
    Diesel.transaction x s = (.error e, { s' with table := s.table }) := by
  rw [Diesel.transaction, h]

theorem collect_ok {α : Type} : ∀ l : List α, Diesel.collect (l.map .ok) s = (.ok l, s)
  | [] => rfl
  | _ :: l => Prog.bind_of_ok (collect_ok l) _

end Statements

/-! ## The two are the same -/

namespace Diesel2

variable {plan : Plan}

theorem getSubscriptionsExpireBefore_eq (before : Int64) :
    getSubscriptionsExpireBefore plan before =
      Diesel1.getSubscriptionsExpireBefore plan before := by
  funext s
  unfold getSubscriptionsExpireBefore
  rw [Prog.bind_of_ok (loadIter_eq _ _), List.map_map]
  rw [Diesel1.getSubscriptionsExpireBefore, Prog.bind_of_ok (load_eq _), Prog.pure_apply,
    List.map_map, ← collect_ok, List.map_map]
  rfl

theorem getOldSubscriptions_eq (id : UInt64) (hub topic : String) :
    getOldSubscriptions plan id hub topic = Diesel1.getOldSubscriptions plan id hub topic := by
  funext s
  unfold getOldSubscriptions
  rw [Prog.bind_of_ok (loadIter_eq _ _), List.map_map]
  rw [Diesel1.getOldSubscriptions, Prog.bind_of_ok (load_eq _), Prog.pure_apply,
    ← collect_ok, List.map_map]
  rfl

end Diesel2

section NextExpiry

variable {plan : Plan} {s : Session}

/-- The rows that expire, in the order of their expiries. -/
def Session.expiring (s : Session) (plan : Plan) : List Row :=
  ((s.scan plan).filter fun r => r.expiresAt.isSome).insertionSort fun r r' =>
    ascending plan.nullsFirst r.expiresAt r'.expiresAt

theorem mem_expiring {r : Row} :
    r ∈ s.expiring plan ↔ r ∈ s.table ∧ r.expiresAt.isSome = true := by
  unfold Session.expiring
  rw [List.mem_insertionSort, List.mem_filter, mem_scan]

theorem le_of_head?_expiring {r : Row} (h : (s.expiring plan).head? = some r) :
    r ∈ s.expiring plan ∧ ∀ r' ∈ s.expiring plan,
      ascending plan.nullsFirst r.expiresAt r'.expiresAt = true := by
  have hfirst := of_head?_insertionSort
    (fun a b c : Row => ascending_trans plan.nullsFirst (a := a.expiresAt) (b := b.expiresAt)
      (c := c.expiresAt))
    (fun a b => ascending_total plan.nullsFirst a.expiresAt b.expiresAt) h
  refine ⟨List.mem_of_head? h, fun r' hr' => hfirst.2 r' ?_⟩
  exact (List.mem_insertionSort _).1 hr'

theorem Diesel1.getNextExpiry_apply :
    Diesel1.getNextExpiry plan s = (.ok ((s.expiring plan).head?.bind Row.expiresAt), s.next) := by
  have hselects : ((Query.table.select Row.expiresAt).filter fun r =>
      isNotNull r.expiresAt).selects = fun r => r.expiresAt.isSome := by
    funext r
    simp
  unfold getNextExpiry Diesel.first
  refine (Prog.map_of_ok (optional_getResult _) _).trans ?_
  unfold Query.result
  rw [Query.selects_take, Query.selects_orderBy, hselects]
  change (Except.ok (Option.join (((s.expiring plan).take 1).map Row.expiresAt).head?), _) = _
  cases s.expiring plan <;> rfl

theorem Diesel2.getNextExpiry_apply :
    Diesel2.getNextExpiry plan s = (.ok ((s.expiring plan).head?.bind Row.expiresAt), s.next) := by
  have hselects : ((Query.table.filter fun r => isNotNull r.expiresAt).select
      Row.expiresAt).selects = fun r => r.expiresAt.isSome := by
    funext r
    simp
  unfold getNextExpiry
  rw [Prog.bind_of_ok (loadIter_eq _ _)]
  unfold Query.result
  rw [Query.selects_orderBy, hselects]
  change Diesel.transpose (((s.expiring plan).map Row.expiresAt).map assumeNotNull).head? _ = _
  cases hs : s.expiring plan with
  | nil => rfl
  | cons r rest =>
    obtain ⟨x, hx⟩ := Option.isSome_iff_exists.1 (mem_expiring.1 (hs ▸ List.mem_cons_self)).2
    simp only [List.map_cons, List.head?_cons, Option.bind_some, hx]
    rfl

end NextExpiry

/-- Under one plan the two back ends do the same. -/
theorem diesel2_eq (plan : Plan) : diesel2 plan = diesel1 plan := by
  have hnext : Diesel2.getNextExpiry plan = Diesel1.getNextExpiry plan := by
    funext s
    rw [Diesel2.getNextExpiry_apply, Diesel1.getNextExpiry_apply]
  have hold : Diesel2.getOldSubscriptions plan = Diesel1.getOldSubscriptions plan := by
    funext id hub topic
    exact Diesel2.getOldSubscriptions_eq id hub topic
  have hexpire : Diesel2.getSubscriptionsExpireBefore plan =
      Diesel1.getSubscriptionsExpireBefore plan := by
    funext before
    exact Diesel2.getSubscriptionsExpireBefore_eq before
  unfold diesel2
  rw [hnext, hold, hexpire]
  rfl

/-! ## The rows of a table and the map -/

section Rows

variable {t : Subscriptions} {l : List Row}

/-- At most one row has an id. -/
theorem head?_filter_of_key (hl : ∀ r, r ∈ l ↔ r ∈ t) {p : Row → Bool} {id : UInt64}
    (hp : ∀ r, p r = true → r.id = id.toInt64) : (l.filter p).head? =
      ((t.toStore id).filter fun e => p (e.row id)).map fun e => e.row id := by
  cases h : (l.filter p).head? with
  | none =>
    have hnone : ∀ e, t.toStore id = some e → p (e.row id) = false := fun e he => by
      have hmem := (hl _).2 (toStore_eq_some_iff.1 he)
      simpa using List.filter_eq_nil_iff.1 (List.head?_eq_none_iff.1 h) _ hmem
    cases hm : t.toStore id with
    | none => rfl
    | some e => simp [hnone e hm]
  | some r =>
    obtain ⟨hmem, hpr⟩ := List.mem_filter.1 (List.mem_of_head? h)
    have hrow : r.entry.row id = r := by
      rw [← UInt64.toUInt64_toInt64 id, ← hp r hpr, Row.row_entry]
    have hm : t.toStore id = some r.entry := by
      rw [toStore_eq_some_iff, hrow]
      exact (hl r).1 hmem
    rw [hm, Option.filter_some, hrow, if_pos hpr, Option.map_some, hrow]

/-- The rows that are selected, with a value that tells their ids. -/
theorem lists_filter {α : Type} (hl : l.Perm t.rows) {p : Row → Bool} {f : Row → α}
    (hf : ∀ r r', f r = f r' → r.id = r'.id) {S : Set α}
    (hS : ∀ a, a ∈ S ↔ ∃ r ∈ t, p r = true ∧ f r = a) : Lists ((l.filter p).map f) S := by
  refine ⟨?_, fun a => ?_⟩
  · have hnodup : (l.map Row.id).Nodup := (hl.map Row.id).nodup_iff.2 t.nodup
    have hids : ((l.filter p).map Row.id).Nodup :=
      hnodup.sublist (List.filter_sublist.map _)
    refine List.Nodup.map_on (fun r hr r' hr' heq => ?_) (List.Nodup.of_map _ hids)
    exact List.inj_on_of_nodup_map hids hr hr' (hf r r' heq)
  · simp only [List.mem_map, List.mem_filter, hS, hl.mem_iff, and_assoc, Table.mem_def]

/-- The expiries in the map are those in the table. -/
theorem expiries_eq (t : Subscriptions) :
    {x | ∃ id e, t.toStore id = some e ∧ x ∈ e.expiresAt} =
      {x | ∃ r ∈ t, r.expiresAt = some x} := by
  ext x
  simp only [Set.mem_ofPred_eq, exists_toStore_iff]
  exact ⟨fun ⟨_, r, hr, _, hx⟩ => ⟨r, hr, hx⟩, fun ⟨r, hr, hx⟩ => ⟨_, r, hr, rfl, hx⟩⟩

theorem toStore_update {p : Row → Bool} {f : Row → Row} (hf : ∀ r, (f r).id = r.id) (id : UInt64) :
    Subscriptions.toStore (t.update p f hf) id =
      (t.toStore id).map fun e => if p (e.row id) then (f (e.row id)).entry else e := by
  have hmem (r : Row) : r ∈ t.update p f hf ↔ ∃ r' ∈ t, (if p r' then f r' else r') = r := by
    rw [Table.mem_def, Table.update, List.mem_map]
    rfl
  refine Option.ext fun e => ?_
  rw [toStore_eq_some_iff, hmem, Option.map_eq_some_iff, exists_toStore_iff]
  refine exists_congr fun r => and_congr_right fun _ => ?_
  by_cases hp : p r = true
  · rw [if_pos hp]
    constructor
    · intro h
      have hid : r.id.toUInt64 = id := by
        rw [← hf r, h]
        rfl
      subst hid
      rw [Row.row_entry, if_pos hp, h]
      exact ⟨rfl, rfl⟩
    · rintro ⟨rfl, h⟩
      rw [Row.row_entry, if_pos hp] at h
      rw [← h, ← hf r, Row.row_entry]
  · rw [if_neg hp]
    constructor
    · rintro rfl
      exact ⟨rfl, if_neg hp⟩
    · rintro ⟨rfl, h⟩
      rw [Row.row_entry, if_neg hp] at h
      rw [← h, Row.row_entry]

theorem toStore_delete {id : UInt64} :
    Subscriptions.toStore (t.delete fun r => r.id = id.toInt64) =
      Function.update t.toStore id none := by
  funext id'
  refine Option.ext fun e => ?_
  rw [toStore_eq_some_iff, Table.mem_delete, ← toStore_eq_some_iff, decide_eq_false_iff_not]
  by_cases h : id' = id
  · subst h
    simp [Entry.row]
  · have hne : id'.toInt64 ≠ id.toInt64 := fun heq => h (toInt64_eq_iff.1 heq)
    rw [Function.update_of_ne h]
    exact and_iff_left hne

theorem toStore_insert {r : Row} {u : Subscriptions} (h : t.insert r = some u) :
    u.toStore = Function.update t.toStore r.id.toUInt64 (some r.entry) := by
  have hfree := Table.not_mem_of_insert h
  funext id
  refine Option.ext fun e => ?_
  rw [toStore_eq_some_iff, Table.mem_iff_of_rows (Table.rows_of_insert h)]
  by_cases hid : id = r.id.toUInt64
  · subst hid
    rw [Function.update_self, Option.some_inj]
    constructor
    · rintro (hmem | heq)
      · exact absurd (Table.key_mem_keys hmem) hfree
      · rw [← heq]
        rfl
    · rintro rfl
      exact .inr rfl
  · rw [Function.update_of_ne hid, toStore_eq_some_iff]
    refine or_iff_left fun heq => hid ?_
    rw [← heq]
    rfl

/-- Whether a row has an id, from the number of its rows. -/
theorem length_select_ne_zero {p : Row → Bool} {id : UInt64}
    (hp : ∀ r, p r = true ↔ r.id = id.toInt64) :
    decide ((t.select p).length ≠ 0) = (t.toStore id).isSome := by
  have hhead := head?_filter_of_key (t := t) (fun _ => Iff.rfl) fun r => (hp r).1
  have hentry (e : Entry) : p (e.row id) = true := (hp _).2 rfl
  unfold Table.select
  cases hl : t.rows.filter p with
  | nil =>
    rw [hl] at hhead
    cases hm : t.toStore id with
    | none => rfl
    | some e => simp [hm, hentry] at hhead
  | cons r l =>
    rw [hl] at hhead
    cases hm : t.toStore id with
    | none => simp [hm] at hhead
    | some e => rfl

end Rows

/-! ## What the calls do -/

namespace Diesel1

variable {plan : Plan} {s : Session}

/-- The first row of a query by id. -/
theorem head?_result {C : Type} {q : Query Row C} (id : UInt64) (ho : q.order = none)
    (hl : q.limit = none) (hq : ∀ r, q.selects r = true → r.id = id.toInt64) :
    (q.result (s.scan plan)).head? =
      ((s.table.toStore id).filter fun e => q.selects (e.row id)).map fun e =>
        q.columns (e.row id) := by
  rw [Query.result_of_unordered ho hl, List.head?_map, head?_filter_of_key (fun _ => mem_scan) hq,
    Option.map_map]
  rfl

theorem getTopic_apply (id : UInt64) : getTopic plan id s =
    (.ok ((s.table.toStore id).map fun e => (e.topic, e.secret)), s.next) := by
  unfold getTopic
  rw [optional_getResult, head?_result id rfl rfl]
  · cases s.table.toStore id with
    | none => rfl
    | some e => simp [Diesel.find, Entry.row]
  · simp [Diesel.find]

theorem getHubOfInactiveSubscription_apply (id : UInt64) (topic : String) :
    getHubOfInactiveSubscription plan id topic s =
      (.ok (((s.table.toStore id).filter fun e => e.topic = topic ∧ e.expiresAt = none).map
        Entry.hub), s.next) := by
  unfold getHubOfInactiveSubscription
  rw [optional_getResult, head?_result id rfl rfl]
  · cases s.table.toStore id with
    | none => rfl
    | some e => simp [Diesel.find, Entry.row, Option.filter_some, apply_ite]
  · simp +contextual [Diesel.find]

theorem subscriptionExists_apply (id : UInt64) (topic : String) :
    subscriptionExists plan id topic s =
      (.ok ((s.table.toStore id).any fun e => e.topic = topic), s.next) := by
  have hempty {α : Type} : ∀ l : List α, (!l.isEmpty) = l.head?.isSome
    | [] => rfl
    | _ :: _ => rfl
  rw [subscriptionExists, Diesel.selectExists, Prog.bind_of_ok (load_eq _), Prog.pure_apply,
    hempty, head?_result id rfl rfl]
  · cases s.table.toStore id with
    | none => rfl
    | some e => simp [Diesel.find, Entry.row, Option.filter_some, apply_ite]
  · simp +contextual [Diesel.find]

theorem id_of_toUInt64 {r r' : Row} (h : r.id.toUInt64 = r'.id.toUInt64) : r.id = r'.id :=
  congrArg UInt64.toInt64 h

theorem getSubscriptionsExpireBefore_spec (plan : Plan) (before : Int64) :
    ∃ l, getSubscriptionsExpireBefore plan before s = (.ok l, s.next) ∧
      Lists l {p | ∃ e, s.table.toStore p.1 = some e ∧ p.2 = (e.hub, e.topic) ∧
        ∃ x ∈ e.expiresAt, x ≤ before} := by
  refine ⟨_, Prog.bind_of_ok (load_eq _) _, ?_⟩
  rw [Query.result_of_unordered rfl rfl, List.map_map, List.map_map]
  refine lists_filter (plan.perm _ _) (fun r r' h => ?_) fun p => ?_
  · exact id_of_toUInt64 (Prod.mk.inj h).1
  · rw [Set.mem_ofPred_eq, exists_toStore_iff]
    refine exists_congr fun r => and_congr_right fun _ => ?_
    simp only [Query.selects_select, Query.selects_filter, Query.selects_table, Bool.true_and,
      holds_le_iff]
    constructor
    · rintro ⟨hid, hcols, hexpires⟩
      exact ⟨hexpires, Prod.ext hid hcols.symm⟩
    · rintro ⟨hexpires, rfl⟩
      exact ⟨rfl, rfl, hexpires⟩

theorem getOldSubscriptions_spec (plan : Plan) (id : UInt64) (hub topic : String) :
    ∃ l, getOldSubscriptions plan id hub topic s = (.ok l, s.next) ∧
      Lists l {x | x ≠ id ∧ ∃ e, s.table.toStore x = some e ∧ e.hub = hub ∧ e.topic = topic} := by
  refine ⟨_, Prog.bind_of_ok (load_eq _) _, ?_⟩
  rw [Query.result_of_unordered rfl rfl, List.map_map]
  refine lists_filter (plan.perm _ _) (fun r r' h => id_of_toUInt64 h) fun x => ?_
  rw [Set.mem_ofPred_eq, exists_toStore_iff]
  simp only [Query.selects_select, Query.selects_filter, Query.selects_table, Bool.true_and,
    Bool.and_eq_true, holds_eq, holds_not_eq, decide_eq_true_iff]
  constructor
  · rintro ⟨hx, r, hr, rfl, hhub, htopic⟩
    exact ⟨r, hr, ⟨⟨hhub, htopic⟩, fun h => hx (toInt64_eq_iff.1 h.symm).symm⟩, rfl⟩
  · rintro ⟨r, hr, ⟨⟨hhub, htopic⟩, hid⟩, rfl⟩
    exact ⟨fun h => hid (congrArg UInt64.toInt64 h), r, hr, rfl, hhub, htopic⟩

theorem getNextExpiry_spec (plan : Plan) :
    ∃ x, getNextExpiry plan s = (.ok x, s.next) ∧
      Least x {x | ∃ id e, s.table.toStore id = some e ∧ x ∈ e.expiresAt} := by
  refine ⟨_, getNextExpiry_apply, ?_⟩
  rw [expiries_eq]
  cases hh : (s.expiring plan).head? with
  | none =>
    refine Set.eq_empty_of_forall_notMem fun x => ?_
    rintro ⟨r, hr, hx⟩
    have hin : r ∈ s.expiring plan := mem_expiring.2 ⟨hr, by rw [hx]; rfl⟩
    rw [List.head?_eq_none_iff.1 hh] at hin
    cases hin
  | some r =>
    obtain ⟨hr, hle⟩ := le_of_head?_expiring hh
    obtain ⟨hr, hsome⟩ := mem_expiring.1 hr
    obtain ⟨x, hx⟩ := Option.isSome_iff_exists.1 hsome
    rw [Option.bind_some, hx]
    refine ⟨⟨r, hr, hx⟩, ?_⟩
    rintro y ⟨r', hr', hy⟩
    have hbefore := hle r' (mem_expiring.2 ⟨hr', by rw [hy]; rfl⟩)
    rw [hx, hy] at hbefore
    exact of_decide_eq_true hbefore

theorem update_apply (target : Query Row Row) (expiresAt : Option Int64) :
    ∃ s', Diesel.update target expiresAt s = (.ok (s.table.select target.selects).length, s') ∧
      s'.log = s.log ∧ s'.rng = s.rng ∧ ∀ id, s'.table.toStore id =
        (s.table.toStore id).map fun e =>
          if target.selects (e.row id) then { e with expiresAt } else e := by
  refine ⟨_, rfl, rfl, rfl, fun id => ?_⟩
  exact toStore_update (f := fun r => { r with expiresAt }) (fun _ => rfl) id

theorem selects_find (id : UInt64) (r : Row) :
    (Diesel.find .table id.toInt64 : Query Row Row).selects r = true ↔ r.id = id.toInt64 := by
  simp [Diesel.find]

theorem selects_find_eq (id : UInt64) : (Diesel.find .table id.toInt64 : Query Row Row).selects =
    fun r => decide (r.id = id.toInt64) := by
  ext r
  rw [Bool.eq_iff_iff, selects_find, decide_eq_true_iff]

theorem activateSubscription_spec (id : UInt64) (expiresAt : Int64) :
    ∃ s', activateSubscription id expiresAt s = (.ok (s.table.toStore id).isSome, s') ∧
      s'.log = s.log ∧ s'.rng = s.rng ∧ s'.table.toStore = Function.update s.table.toStore id
        ((s.table.toStore id).map fun e => { e with expiresAt := some expiresAt }) := by
  obtain ⟨s', hs', hlog, hrng, hstore⟩ :=
    update_apply (s := s) (Diesel.find .table id.toInt64) (some expiresAt)
  refine ⟨s', ?_, hlog, hrng, ?_⟩
  · rw [← length_select_ne_zero (selects_find id)]
    exact Prog.map_of_ok hs' _
  · funext id'
    rw [hstore]
    by_cases h : id' = id
    · subst h
      simp [selects_find, Entry.row]
    · have hne : id'.toInt64 ≠ id.toInt64 := fun heq => h (toInt64_eq_iff.1 heq)
      simp [Function.update_of_ne h, selects_find, Entry.row, hne]

theorem deactivateSubscriptionsExpireBefore_spec (before : Int64) :
    ∃ s', deactivateSubscriptionsExpireBefore before s = (.ok (), s') ∧ s'.log = s.log ∧
      s'.rng = s.rng ∧ s'.table.toStore = fun id =>
        (s.table.toStore id).map (Entry.deactivate before) := by
  obtain ⟨s', hs', hlog, hrng, hstore⟩ := update_apply (s := s)
    (Query.table.filter fun r => Sql.le r.expiresAt (some before)) none
  refine ⟨s', Prog.map_of_ok hs' _, hlog, hrng, ?_⟩
  funext id
  rw [hstore]
  refine congrArg (Option.map · _) (funext fun e => ?_)
  simp only [Query.selects_filter, Query.selects_table, Bool.true_and, holds_le_iff]
  rfl

theorem deleteSubscriptions_spec (id : UInt64) :
    ∃ s', deleteSubscriptions id s = (.ok (s.table.toStore id).isSome, s') ∧
      s'.log = s.log ∧ s'.rng = s.rng ∧
        s'.table.toStore = Function.update s.table.toStore id none := by
  have hrun : Diesel.delete (Diesel.find .table id.toInt64) s =
      (.ok (s.table.select (Diesel.find .table id.toInt64 : Query Row Row).selects).length,
        { s with table := s.table.delete fun r => r.id = id.toInt64 }) := by
    unfold Diesel.delete
    rw [selects_find_eq]
  refine ⟨{ s with table := s.table.delete fun r => r.id = id.toInt64 }, ?_, rfl, rfl,
    toStore_delete⟩
  rw [← length_select_ne_zero (selects_find id)]
  exact Prog.map_of_ok hrun _

/-- The loop takes the first value that is no id. -/
theorem createLoop_spec (hub topic secret : String) : ∀ (rng : List UInt64) (s : Session),
    (∃ id s', Diesel.createLoop hub topic secret rng s = (.ok id, s') ∧ s'.log = s.log ∧
      (ConnCall.createSubscription hub topic secret).Step ⟨s.table.toStore, rng⟩ (.id id)
        s'.state) ∨
    ∃ s', Diesel.createLoop hub topic secret rng s = (.error .starved, s') ∧ s'.log = s.log ∧
      (ConnCall.createSubscription hub topic secret).Starves ⟨s.table.toStore, rng⟩
  | [], s => .inr ⟨s, rfl, rfl, nofun⟩
  | id :: rng, s => by
    cases hins : s.table.insert ⟨id.toInt64, hub, topic, secret, none⟩ with
    | some u =>
      have hrun : Diesel.createLoop hub topic secret (id :: rng) s =
          (.ok id, { s with rng, table := u }) := by
        simp only [Diesel.createLoop, Diesel.insertInto, hins]
      refine .inl ⟨id, _, hrun, rfl, [], id, rfl, rfl, nofun, ?_, toStore_insert hins⟩
      exact toStore_eq_none_iff.2 (Table.not_mem_of_insert hins)
    | none =>
      have hrun : Diesel.createLoop hub topic secret (id :: rng) s =
          Diesel.createLoop hub topic secret rng { s with rng } := by
        simp only [Diesel.createLoop, Diesel.insertInto, hins]
      have htaken : (s.table.toStore id).isSome :=
        isSome_toStore_iff.2 (Table.insert_eq_none_iff.1 hins)
      rw [hrun]
      rcases createLoop_spec hub topic secret rng { s with rng } with
        ⟨id', s', h, hlog, taken, id'', hid, hrng, htaken', hfree, hstore⟩ |
          ⟨s', h, hlog, hstarves⟩
      · refine .inl ⟨id', s', h, hlog, id :: taken, id'', hid, ?_, ?_, hfree, hstore⟩
        · exact congrArg (id :: ·) hrng
        · exact List.forall_mem_cons.2 ⟨htaken, htaken'⟩
      · exact .inr ⟨s', h, hlog, List.forall_mem_cons.2 ⟨htaken, hstarves⟩⟩

theorem createSubscription_spec (hub topic secret : String) :
    (∃ id s', createSubscription hub topic secret s = (.ok id, s') ∧ s'.log = s.log ∧
      (ConnCall.createSubscription hub topic secret).Step s.state (.id id) s'.state) ∨
    ∃ s', createSubscription hub topic secret s = (.error .starved, s') ∧ s'.log = s.log ∧
      (ConnCall.createSubscription hub topic secret).Starves s.state := by
  rcases createLoop_spec hub topic secret s.rng s with
    ⟨id, s', h, hlog, hstep⟩ | ⟨s', h, hlog, hstarves⟩
  · exact .inl ⟨id, s', transaction_of_ok h, hlog, hstep⟩
  · exact .inr ⟨_, transaction_of_error h, hlog, hstarves⟩

end Diesel1

/-- The single calls of the back ends do what the map does. -/
theorem implements_diesel1 (plan : Plan) : Implements (diesel1 plan) where
  call c s := by
    cases c with
    | createSubscription hub topic secret =>
      rcases Diesel1.createSubscription_spec (s := s) hub topic secret with
        ⟨id, s', h, hlog, hstep⟩ | ⟨s', h, hlog, hstarves⟩
      · exact .inl ⟨_, s', Prog.map_of_ok h _, hlog, hstep⟩
      · exact .inr ⟨s', Prog.map_of_error h _, hlog, hstarves⟩
    | getTopic id =>
      exact .inl ⟨_, s.next, Prog.map_of_ok (Diesel1.getTopic_apply id) _, rfl, rfl, rfl⟩
    | subscriptionExists id topic =>
      exact .inl ⟨_, s.next, Prog.map_of_ok (Diesel1.subscriptionExists_apply id topic) _, rfl,
        rfl, rfl⟩
    | getSubscriptionsExpireBefore before =>
      obtain ⟨l, h, hl⟩ := Diesel1.getSubscriptionsExpireBefore_spec (s := s) plan before
      exact .inl ⟨_, s.next, Prog.map_of_ok h _, rfl, ⟨l, rfl, hl⟩, rfl⟩
    | getHubOfInactiveSubscription id topic =>
      exact .inl ⟨_, s.next,
        Prog.map_of_ok (Diesel1.getHubOfInactiveSubscription_apply id topic) _, rfl, rfl, rfl⟩
    | getOldSubscriptions id hub topic =>
      obtain ⟨l, h, hl⟩ := Diesel1.getOldSubscriptions_spec (s := s) plan id hub topic
      exact .inl ⟨_, s.next, Prog.map_of_ok h _, rfl, ⟨l, rfl, hl⟩, rfl⟩
    | activateSubscription id expiresAt =>
      obtain ⟨s', h, hlog, hrng, hstore⟩ := Diesel1.activateSubscription_spec (s := s) id expiresAt
      exact .inl ⟨_, s', Prog.map_of_ok h _, hlog, rfl, congr (congrArg _ hstore) hrng⟩
    | deactivateSubscriptionsExpireBefore before =>
      obtain ⟨s', h, hlog, hrng, hstore⟩ :=
        Diesel1.deactivateSubscriptionsExpireBefore_spec (s := s) before
      exact .inl ⟨_, s', Prog.map_of_ok h _, hlog, rfl, congr (congrArg _ hstore) hrng⟩
    | deleteSubscriptions id =>
      obtain ⟨s', h, hlog, hrng, hstore⟩ := Diesel1.deleteSubscriptions_spec (s := s) id
      exact .inl ⟨_, s', Prog.map_of_ok h _, hlog, rfl, congr (congrArg _ hstore) hrng⟩
    | getNextExpiry =>
      obtain ⟨x, h, hx⟩ := Diesel1.getNextExpiry_spec (s := s) plan
      exact .inl ⟨_, s.next, Prog.map_of_ok h _, rfl, ⟨x, rfl, hx⟩, rfl⟩
  ok_transaction := transaction_of_ok
  error_transaction := transaction_of_error

theorem implements_diesel2 (plan : Plan) : Implements (diesel2 plan) := by
  rw [diesel2_eq]
  exact implements_diesel1 plan

/-- For every sequence of calls, from the same rows and with the same random values, and in
whatever order the scans meet the rows : the two back ends return the same results and leave
the same rows, and what they do is what the map of ids to subscriptions does. -/
theorem backends_agree (plan plan' : Plan) (calls : Calls) {t t' : Subscriptions}
    (ht : t.rows.Perm t'.rows) (rng : List UInt64) :
    SameRun (calls.run (diesel1 plan) (.start t rng)) (calls.run (diesel2 plan') (.start t' rng)) ∧
      RefinesStore (diesel1 plan) calls (.start t rng) ∧
      RefinesStore (diesel2 plan') calls (.start t' rng) := by
  have h := refines_of_implements (implements_diesel1 plan) calls (.start t rng)
  have h' := refines_of_implements (implements_diesel2 plan') calls (.start t' rng)
  exact ⟨sameRun_of_refines ht h h', h, h'⟩

/-- Scans in the order of the table, with nulls first. -/
def Plan.inOrder : Plan :=
  ⟨fun _ rows => rows, fun _ _ => .refl _, true⟩

/-- Scans against the order of the table, with nulls last. -/
def Plan.reversed : Plan :=
  ⟨fun _ rows => rows.reverse, fun _ => List.reverse_perm, false⟩

/-- The ids `2 ^ 63` and 1, the first with a negative expiry and the second without one. -/
def exampleRows : List Row :=
  [⟨-0x8000000000000000, "hub", "topic", "secret", some (-5)⟩, ⟨1, "hub", "topic", "secret", none⟩]

/-- A creation that meets the id 1 first, in a transaction that fails within one that
commits. -/
def exampleCalls : Calls :=
  .transaction
    (.transaction (.call (.createSubscription "hub" "topic" "secret") .done) false
      (.call (.getSubscriptionsExpireBefore 0) (.call (.activateSubscription 1 7) .done)))
    true (.call .getNextExpiry (.call (.getTopic 0x8000000000000000) .done))

theorem backends_agree_example :
    SameRun
      (exampleCalls.run (diesel1 .inOrder) (.start ⟨exampleRows, by decide⟩ [1, 3]))
      (exampleCalls.run (diesel2 .reversed) (.start ⟨exampleRows.reverse, by decide⟩ [1, 3])) ∧
    RefinesStore (diesel1 .inOrder) exampleCalls (.start ⟨exampleRows, by decide⟩ [1, 3]) ∧
    RefinesStore (diesel2 .reversed) exampleCalls
      (.start ⟨exampleRows.reverse, by decide⟩ [1, 3]) :=
  backends_agree .inOrder .reversed exampleCalls (List.reverse_perm exampleRows).symm [1, 3]

example :
    (exampleCalls.run (diesel1 .reversed) (.start ⟨exampleRows, by decide⟩ [1, 3])).2.log =
      [.id 3, .transaction false, .subscriptions [(0x8000000000000000, "hub", "topic")], .flag true,
        .transaction true, .expiry (some (-5)), .topic (some ("topic", "secret"))] := by
  decide +kernel

end Websub
