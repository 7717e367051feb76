import Websub.Lib.Table
import Websub.Lib.Prog

/-!
# The subscription store and its connection

`schema.rs` and `db/diesel2.rs`. `Subscriptions` is the table with the primary key `id`,
and the queries of `ConnectionRef` are functions of it. A subscription id is a `u64`,
stored as the `i64` of the same bits. A comparison with a null `expires_at` is not true.

`World` is what a call on a connection can read and change : the store it sees, the
stores saved where transactions opened, the values the random generator is about to
return, the futures it has spawned and the time of the next tick. `faults` says which
database statements fail, counted from the opening of the connection, so that a theorem
about every `faults` covers every point of failure. What other connections see is
`World.committed`, the store at the start of the outermost open transaction.

`World.moments` is the run itself : what was committed and what had been spawned after
each step. A spawned future runs concurrently from the moment it is spawned, so it can
act at any of the later ones.

`Extends` is what every program over these steps keeps : transactions nest, moments and
spawned futures only grow, and nothing is committed within a transaction.
-/

namespace Websub

open Tables Programs

/-! ## The table -/

/-- A row of `subscriptions`. -/
structure Row where
  id : Int64
  hub : String
  topic : String
  secret : String
  expiresAt : Option Int64
deriving DecidableEq

/-- The table `subscriptions`. -/
abbrev Subscriptions := Table Row.id

/-- `expires_at <= before`. -/
def Row.expiresBefore (r : Row) (before : Int64) : Bool :=
  match r.expiresAt with
  | some e => e ≤ before
  | none => false

namespace Subscriptions

variable (t : Subscriptions)

def getTopic (id : UInt64) : Option (String × String) :=
  (t.select fun r => r.id = id.toInt64).head?.map fun r => (r.topic, r.secret)

def subscriptionExists (id : UInt64) (topic : String) : Bool :=
  (t.select fun r => r.id = id.toInt64 && r.topic = topic) ≠ []

def getSubscriptionsExpireBefore (before : Int64) : List (UInt64 × String × String) :=
  (t.select fun r => r.expiresBefore before).map fun r => (r.id.toUInt64, r.hub, r.topic)

def getHubOfInactiveSubscription (id : UInt64) (topic : String) : Option String :=
  (t.select fun r => r.id = id.toInt64 && r.topic = topic && r.expiresAt.isNone).head?.map Row.hub

def getOldSubscriptions (id : UInt64) (hub topic : String) : List UInt64 :=
  (t.select fun r => r.hub = hub && r.topic = topic && r.id ≠ id.toInt64).map
    fun r => r.id.toUInt64

/-- The update, and whether a row was updated. -/
def activateSubscription (id : UInt64) (expiresAt : Int64) : Bool × Subscriptions :=
  (decide (id.toInt64 ∈ t.keys),
    t.update (fun r => r.id = id.toInt64) (fun r => { r with expiresAt := some expiresAt })
      fun _ => rfl)

def deactivateSubscriptionsExpireBefore (before : Int64) : Subscriptions :=
  t.update (fun r => r.expiresBefore before) (fun r => { r with expiresAt := none }) fun _ => rfl

/-- The deletion, and whether a row was deleted. -/
def deleteSubscriptions (id : UInt64) : Bool × Subscriptions :=
  (decide (id.toInt64 ∈ t.keys), t.delete fun r => r.id = id.toInt64)

/-- The first of the expiries in ascending order. -/
def getNextExpiry : Option Int64 :=
  ((t.rows.filterMap Row.expiresAt).insertionSort (· ≤ ·)).head?

end Subscriptions

/-! ## Calls on a connection -/

/-- The errors of a database statement. -/
inductive DbError
  /-- The primary key is taken. -/
  | uniqueViolation
  | other (code : ℕ)
deriving DecidableEq

/-- Why a call does not return a value. -/
inductive Stop
  /-- It returns an error. -/
  | error (e : DbError)
  | panicked
  /-- It still loops when the random values given are used up. -/
  | starved
deriving DecidableEq

/-- What is committed and what has been spawned at a moment of a run. -/
structure Moment (τ : Type) where
  committed : Subscriptions
  spawned : List τ

/-- What a call on a connection reads and changes, with futures of type `τ`. -/
structure World (τ : Type) where
  /-- The store this connection sees. -/
  store : Subscriptions
  /-- The store at the start of each open transaction, the innermost first. -/
  saved : List Subscriptions
  /-- The number of database statements so far. -/
  stmts : ℕ
  /-- The error of each statement that fails. -/
  faults : ℕ → Option ℕ
  /-- What `next_u64` is about to return. -/
  rng : List UInt64
  /-- What the `n`-th `fill_bytes` returns. -/
  fills : ℕ → Vector UInt8 24
  filled : ℕ
  /-- The futures handed to the executor. -/
  spawned : List τ
  /-- `Handle::next_tick`. -/
  nextTick : UInt64
  /-- The moments of the run so far, the latest first. -/
  moments : List (Moment τ)

/-- Calls on a connection. -/
abbrev Db (τ : Type) := Prog (World τ) Stop

namespace World

variable {τ : Type}

/-- A connection on a store, outside of any transaction. -/
def start (store : Subscriptions) (faults : ℕ → Option ℕ) (rng : List UInt64)
    (fills : ℕ → Vector UInt8 24) (nextTick : UInt64) : World τ :=
  { store, saved := [], stmts := 0, faults, rng, fills, filled := 0, spawned := [], nextTick,
    moments := [] }

/-- What other connections see. -/
def committed (w : World τ) : Subscriptions :=
  w.saved.getLast?.getD w.store

/-- Record what is committed and what has been spawned. -/
def observe (w : World τ) : World τ :=
  { w with moments := ⟨w.committed, w.spawned⟩ :: w.moments }

end World

section Code

variable {τ α : Type}

/-- A database statement. -/
def statement (f : Subscriptions → α × Subscriptions) : Db τ α := fun w =>
  match w.faults w.stmts with
  | some code => (.error (.error (.other code)), { w with stmts := w.stmts + 1 }.observe)
  | none => (.ok (f w.store).1, { w with stmts := w.stmts + 1, store := (f w.store).2 }.observe)

/-- A statement that reads. -/
def query (f : Subscriptions → α) : Db τ α :=
  statement fun t => (f t, t)

/-- The state inside a transaction that has just been opened. -/
def World.opened (w : World τ) : World τ :=
  { w with stmts := w.stmts + 1, saved := w.store :: w.saved }.observe

/-- The state after the innermost transaction was closed with the store `t`. -/
def World.closed (w : World τ) (t : Subscriptions) : World τ :=
  { w with stmts := w.stmts + 1, store := t, saved := w.saved.tail }.observe

/-- The store at the start of the innermost transaction. -/
def World.rollback (w : World τ) : Subscriptions :=
  w.saved.headD w.store

/-- `ConnectionRef::transaction`. Opening and committing are statements and can fail. The
store is rolled back if the closure returns an error, if it panics, which drops the
connection, and if committing fails. A transaction within a transaction is a savepoint. -/
def transaction (x : Db τ α) : Db τ α := fun w =>
  match w.faults w.stmts with
  | some code => (.error (.error (.other code)), { w with stmts := w.stmts + 1 }.observe)
  | none =>
    match x w.opened with
    | (.ok a, w') =>
      match w'.faults w'.stmts with
      | some code => (.error (.error (.other code)), w'.closed w'.rollback)
      | none => (.ok a, w'.closed w'.store)
    | (.error e, w') => (.error e, w'.closed w'.rollback)

/-- The state after a statement with a value drawn from the random generator. -/
def World.drawn (w : World τ) (rng : List UInt64) : World τ :=
  { w with stmts := w.stmts + 1, rng := rng }

/-- The loop of `create_subscription` : insert under a random id until the id is free. -/
def insertLoop (hub topic secret : String) : List UInt64 → Db τ UInt64
  | [] => Prog.stop .starved
  | id :: rng => fun w =>
    match w.faults w.stmts with
    | some code => (.error (.error (.other code)), (w.drawn rng).observe)
    | none =>
      match w.store.insert ⟨id.toInt64, hub, topic, secret, none⟩ with
      | some t => (.ok id, { w.drawn rng with store := t }.observe)
      | none => -- a unique violation, retry
        insertLoop hub topic secret rng (w.drawn rng).observe

def createSubscription (hub topic secret : String) : Db τ UInt64 :=
  transaction fun w => insertLoop hub topic secret w.rng w

def getTopic (id : UInt64) : Db τ (Option (String × String)) :=
  query fun t => t.getTopic id

def subscriptionExists (id : UInt64) (topic : String) : Db τ Bool :=
  query fun t => t.subscriptionExists id topic

def getSubscriptionsExpireBefore (before : Int64) : Db τ (List (UInt64 × String × String)) :=
  query fun t => t.getSubscriptionsExpireBefore before

def getHubOfInactiveSubscription (id : UInt64) (topic : String) : Db τ (Option String) :=
  query fun t => t.getHubOfInactiveSubscription id topic

def getOldSubscriptions (id : UInt64) (hub topic : String) : Db τ (List UInt64) :=
  query fun t => t.getOldSubscriptions id hub topic

def activateSubscription (id : UInt64) (expiresAt : Int64) : Db τ Bool :=
  statement fun t => t.activateSubscription id expiresAt

def deactivateSubscriptionsExpireBefore (before : Int64) : Db τ Unit :=
  statement fun t => ((), t.deactivateSubscriptionsExpireBefore before)

def deleteSubscriptions (id : UInt64) : Db τ Bool :=
  statement fun t => t.deleteSubscriptions id

def getNextExpiry : Db τ (Option Int64) :=
  query fun t => t.getNextExpiry

/-- `tokio::spawn`. -/
def spawn (task : τ) : Db τ Unit :=
  Prog.modify fun w => { w with spawned := w.spawned ++ [task] }.observe

end Code

/-! ## What every call keeps -/

/-- How the state grows : transactions nest, moments and futures are only added, and as
long as a transaction is open nothing is committed. -/
structure Extends {τ : Type} (w w' : World τ) : Prop where
  saved : w'.saved = w.saved
  faults : w'.faults = w.faults
  spawned : w.spawned <+: w'.spawned
  moments : ∃ ms, w'.moments = ms ++ w.moments ∧ ∀ m ∈ ms,
    (w.saved ≠ [] → m.committed = w.committed) ∧ w.spawned <+: m.spawned ∧
      m.spawned <+: w'.spawned

namespace Extends

variable {τ : Type} {w w' w'' : World τ}

theorem refl (w : World τ) : Extends w w :=
  ⟨rfl, rfl, List.prefix_rfl, [], rfl, by simp⟩

theorem committed_eq (h : Extends w w') (ho : w.saved ≠ []) : w'.committed = w.committed := by
  cases hs : w.saved.getLast? with
  | none => exact absurd (List.getLast?_eq_none_iff.1 hs) ho
  | some t => rw [World.committed, World.committed, h.saved, hs, Option.getD_some, Option.getD_some]

theorem trans (h : Extends w w') (h' : Extends w' w'') : Extends w w'' := by
  obtain ⟨ms, hms, hm⟩ := h.moments
  obtain ⟨ms', hms', hm'⟩ := h'.moments
  refine ⟨h'.saved.trans h.saved, h'.faults.trans h.faults, h.spawned.trans h'.spawned,
    ms' ++ ms, by rw [hms', hms, List.append_assoc], fun m hmem => ?_⟩
  rcases List.mem_append.1 hmem with hmem | hmem
  · obtain ⟨h1, h2, h3⟩ := hm' m hmem
    refine ⟨fun ho => ?_, h.spawned.trans h2, h3⟩
    rw [h1 (h.saved ▸ ho), h.committed_eq ho]
  · obtain ⟨h1, h2, h3⟩ := hm m hmem
    exact ⟨h1, h2, h3.trans h'.spawned⟩

/-- A step that records itself. -/
theorem observe (hs : w'.saved = w.saved) (hf : w'.faults = w.faults)
    (hsp : w.spawned <+: w'.spawned) (hm : w'.moments = w.moments) : Extends w w'.observe := by
  refine ⟨hs, hf, hsp, [⟨w'.committed, w'.spawned⟩], by rw [World.observe, hm]; rfl, ?_⟩
  rintro m hmem
  obtain rfl := List.mem_singleton.1 hmem
  refine ⟨fun ho => ?_, hsp, List.prefix_rfl⟩
  exact (Extends.mk hs hf hsp ⟨[], hm, by simp⟩ : Extends w w').committed_eq ho

/-- A moment of the run stays one. -/
theorem mem_moments (h : Extends w w') {m : Moment τ} (hm : m ∈ w.moments) : m ∈ w'.moments := by
  obtain ⟨ms, hms, -⟩ := h.moments
  rw [hms]
  exact List.mem_append_right _ hm

end Extends

/-- A call that extends the state, whether it returns or stops. -/
def Keeps {τ α : Type} (x : Db τ α) : Prop :=
  ∀ w, Extends w (x w).2

section Keeps

variable {τ α β : Type}

theorem Keeps.pure (a : α) : Keeps (pure a : Db τ α) := fun w => Extends.refl w

theorem Keeps.stop (e : Stop) : Keeps (Prog.stop e : Db τ α) := fun w => Extends.refl w

theorem Keeps.bind {x : Db τ α} {f : α → Db τ β} (hx : Keeps x) (hf : ∀ a, Keeps (f a)) :
    Keeps (x >>= f) :=
  Prog.Within.bind (fun _ _ _ h h' => h.trans h') hx hf

theorem Keeps.each {f : β → Db τ Unit} (hf : ∀ b, Keeps (f b)) (l : List β) :
    Keeps (Prog.each l f) :=
  Prog.Within.each Extends.refl (fun _ _ _ h h' => h.trans h') hf l

theorem keeps_statement (f : Subscriptions → α × Subscriptions) :
    Keeps (statement f : Db τ α) := by
  intro w
  unfold statement
  split <;> exact Extends.observe rfl rfl List.prefix_rfl rfl

theorem keeps_query (f : Subscriptions → α) : Keeps (query f : Db τ α) :=
  keeps_statement _

theorem keeps_spawn (task : τ) : Keeps (spawn task) := fun _ =>
  Extends.observe rfl rfl (List.prefix_append _ _) rfl

theorem keeps_insertLoop (hub topic secret : String) :
    ∀ rng, Keeps (insertLoop hub topic secret rng : Db τ UInt64)
  | [] => Keeps.stop _
  | id :: rng => by
    intro w
    unfold insertLoop
    split
    · exact Extends.observe rfl rfl List.prefix_rfl rfl
    · split
      · exact Extends.observe rfl rfl List.prefix_rfl rfl
      · have hdrawn : Extends w (w.drawn rng).observe :=
          Extends.observe rfl rfl List.prefix_rfl rfl
        exact hdrawn.trans (keeps_insertLoop hub topic secret rng _)

/-- Closing a transaction ends in a state that extends the one before it was opened. -/
theorem Extends.closed {w w' : World τ} (h : Extends w.opened w') (t : Subscriptions) :
    Extends w (w'.closed t) := by
  have hs : w'.saved.tail = w.saved := by
    rw [h.saved, World.opened, World.observe, List.tail_cons]
  have hopen : w.opened.saved ≠ [] := by simp [World.opened, World.observe]
  have hcomm : w.saved ≠ [] → w.opened.committed = w.committed := by
    intro ho
    cases hl : w.saved.getLast? with
    | none => exact absurd (List.getLast?_eq_none_iff.1 hl) ho
    | some u =>
      unfold World.committed
      rw [hl]
      simp [World.opened, World.observe, List.getLast?_cons, hl]
  obtain ⟨ms, hms, hm⟩ := h.moments
  refine ⟨hs, h.faults, h.spawned, ⟨(w'.closed t).committed, w'.spawned⟩ :: ms ++
    [⟨w.opened.committed, w.spawned⟩], ?_, ?_⟩
  · rw [World.closed, World.observe, hms]
    simp [World.opened, World.observe, World.committed]
  · intro m hmem
    rcases List.mem_append.1 hmem with hmem | hmem
    · rcases List.mem_cons.1 hmem with rfl | hmem
      · refine ⟨fun ho => ?_, h.spawned, List.prefix_rfl⟩
        cases hl : w.saved.getLast? with
        | none => exact absurd (List.getLast?_eq_none_iff.1 hl) ho
        | some u =>
          unfold World.committed
          rw [hl, World.closed, World.observe]
          simp [hs, hl]
      · obtain ⟨h1, h2, h3⟩ := hm m hmem
        exact ⟨fun ho => (h1 hopen).trans (hcomm ho), h2, h3⟩
    · obtain rfl := List.mem_singleton.1 hmem
      exact ⟨hcomm, List.prefix_rfl, h.spawned⟩

theorem keeps_transaction {x : Db τ α} (hx : Keeps x) : Keeps (transaction x) := by
  intro w
  have h := hx w.opened
  rw [transaction]
  split
  · exact Extends.observe rfl rfl List.prefix_rfl rfl
  · split
    · rename_i hxw
      rw [hxw] at h
      split <;> exact h.closed _
    · rename_i hxw
      rw [hxw] at h
      exact h.closed _

theorem keeps_createSubscription (hub topic secret : String) :
    Keeps (createSubscription hub topic secret : Db τ UInt64) :=
  keeps_transaction fun w => keeps_insertLoop hub topic secret w.rng w

/-- A transaction that does not return leaves the store as it was. -/
theorem store_of_transaction_error {x : Db τ α} (hx : Keeps x) {w w' : World τ} {e : Stop}
    (h : transaction x w = (.error e, w')) : w'.store = w.store := by
  have hroll : ∀ {r}, x w.opened = r → r.2.rollback = w.store := by
    rintro r rfl
    unfold World.rollback
    rw [(hx w.opened).saved, World.opened, World.observe, List.headD_cons]
  rw [transaction] at h
  split at h
  · obtain ⟨-, rfl⟩ := Prod.mk.inj h
    rfl
  · split at h
    · rename_i hxw
      split at h
      · obtain ⟨-, rfl⟩ := Prod.mk.inj h
        exact hroll hxw
      · cases (Prod.mk.inj h).1
    · rename_i hxw
      obtain ⟨-, rfl⟩ := Prod.mk.inj h
      exact hroll hxw

/-- A transaction that returns is its closure run inside it, closed. -/
theorem ok_of_transaction {x : Db τ α} {w w' : World τ} {a : α}
    (h : transaction x w = (.ok a, w')) :
    ∃ v, x w.opened = (.ok a, v) ∧ w' = v.closed v.store := by
  rw [transaction] at h
  split at h
  · cases (Prod.mk.inj h).1
  · split at h
    · rename_i v hxw
      split at h
      · cases (Prod.mk.inj h).1
      · obtain ⟨ha, rfl⟩ := Prod.mk.inj h
        obtain rfl := Except.ok.inj ha
        exact ⟨v, hxw, rfl⟩
    · cases (Prod.mk.inj h).1

/-- A query leaves the store as it is. -/
theorem store_of_query (f : Subscriptions → α) (w : World τ) : (query f w).2.store = w.store := by
  unfold query statement
  split <;> rfl

/-- A statement that fails leaves the store as it was. -/
theorem store_of_statement_error {f : Subscriptions → α × Subscriptions} {w w' : World τ}
    {e : Stop} (h : statement f w = (.error e, w')) : w'.store = w.store := by
  unfold statement at h
  split at h
  · rw [← (Prod.mk.inj h).2]
    rfl
  · cases (Prod.mk.inj h).1

/-- A statement that returns ran on the store. -/
theorem ok_of_statement {f : Subscriptions → α × Subscriptions} {w w' : World τ} {a : α}
    (h : statement f w = (.ok a, w')) :
    a = (f w.store).1 ∧ w' = { w with stmts := w.stmts + 1, store := (f w.store).2 }.observe := by
  unfold statement at h
  split at h
  · cases (Prod.mk.inj h).1
  · obtain ⟨ha, rfl⟩ := Prod.mk.inj h
    exact ⟨(Except.ok.inj ha).symm, rfl⟩

end Keeps

end Websub
