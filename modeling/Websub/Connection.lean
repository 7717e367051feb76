import Websub.Lib.Sql
import Websub.Db

/-!
# Connections and the store they implement

`db.rs`. A `ConnectionRef` is what the trait of that name asks of a database back end, and
`Calls` is a sequence of calls on it, with transactions within transactions that commit or
fail.

The store that a back end implements is a map (`Store`) from ids to subscriptions.
`Calls.Runs` says what a sequence of calls may return and what becomes of the map. It is
determined, up to the order of lists (`runs_unique`). A back end whose single calls do what
the map does, and whose transactions restore the table they started from when they fail,
does so for all sequences (`refines_of_implements`).
-/

namespace Websub

open Tables Programs Sql

/-! ## The code -/

/-- The errors of a call, as far as they are told apart. -/
inductive DieselError
  | notFound
  | uniqueViolation
  /-- A null where none was expected. -/
  | unexpectedNull
  | rollbackTransaction
  /-- It still loops when the random values given are used up. -/
  | starved
deriving DecidableEq

/-- What a call returns. -/
inductive Reply
  | id (id : UInt64)
  | topic (cols : Option (String × String))
  | flag (b : Bool)
  | subscriptions (l : List (UInt64 × String × String))
  | hub (hub : Option String)
  | ids (l : List UInt64)
  | unit
  | expiry (expiresAt : Option Int64)
  /-- A transaction, and whether it was committed. -/
  | transaction (committed : Bool)
deriving DecidableEq

/-- A connection to a database, and its caller. -/
structure Session where
  table : Subscriptions
  /-- The number of queries so far. -/
  queries : ℕ
  /-- What `next_u64` is about to return. -/
  rng : List UInt64
  /-- What the caller was returned so far. -/
  log : List Reply

/-- A connection to a table that was not used yet. -/
def Session.start (table : Subscriptions) (rng : List UInt64) : Session :=
  ⟨table, 0, rng, []⟩

/-- Calls on a connection to a database. -/
abbrev Conn := Prog Session DieselError

/-- `db::ConnectionRef`. -/
structure ConnectionRef where
  transaction : {α : Type} → Conn α → Conn α
  createSubscription : (hub topic secret : String) → Conn UInt64
  getTopic : (id : UInt64) → Conn (Option (String × String))
  subscriptionExists : (id : UInt64) → (topic : String) → Conn Bool
  getSubscriptionsExpireBefore : (before : Int64) → Conn (List (UInt64 × String × String))
  getHubOfInactiveSubscription : (id : UInt64) → (topic : String) → Conn (Option String)
  getOldSubscriptions : (id : UInt64) → (hub topic : String) → Conn (List UInt64)
  activateSubscription : (id : UInt64) → (expiresAt : Int64) → Conn Bool
  deactivateSubscriptionsExpireBefore : (before : Int64) → Conn Unit
  deleteSubscriptions : (id : UInt64) → Conn Bool
  getNextExpiry : Conn (Option Int64)

/-- A call of a method other than `transaction`. -/
inductive ConnCall
  | createSubscription (hub topic secret : String)
  | getTopic (id : UInt64)
  | subscriptionExists (id : UInt64) (topic : String)
  | getSubscriptionsExpireBefore (before : Int64)
  | getHubOfInactiveSubscription (id : UInt64) (topic : String)
  | getOldSubscriptions (id : UInt64) (hub topic : String)
  | activateSubscription (id : UInt64) (expiresAt : Int64)
  | deactivateSubscriptionsExpireBefore (before : Int64)
  | deleteSubscriptions (id : UInt64)
  | getNextExpiry

/-- A sequence of calls. -/
inductive Calls
  | done
  | call (c : ConnCall) (rest : Calls)
  /-- A transaction whose closure makes calls, and then returns `Ok` or `Err`. -/
  | transaction (body : Calls) (commits : Bool) (rest : Calls)

/-- Make a call. -/
def ConnectionRef.call (conn : ConnectionRef) : ConnCall → Conn Reply
  | .createSubscription hub topic secret => .id <$> conn.createSubscription hub topic secret
  | .getTopic id => .topic <$> conn.getTopic id
  | .subscriptionExists id topic => .flag <$> conn.subscriptionExists id topic
  | .getSubscriptionsExpireBefore before =>
    .subscriptions <$> conn.getSubscriptionsExpireBefore before
  | .getHubOfInactiveSubscription id topic => .hub <$> conn.getHubOfInactiveSubscription id topic
  | .getOldSubscriptions id hub topic => .ids <$> conn.getOldSubscriptions id hub topic
  | .activateSubscription id expiresAt => .flag <$> conn.activateSubscription id expiresAt
  | .deactivateSubscriptionsExpireBefore before =>
    (fun _ => .unit) <$> conn.deactivateSubscriptionsExpireBefore before
  | .deleteSubscriptions id => .flag <$> conn.deleteSubscriptions id
  | .getNextExpiry => .expiry <$> conn.getNextExpiry

/-- The caller takes what was returned. -/
def record (r : Reply) : Conn Unit :=
  Prog.modify fun s => { s with log := s.log ++ [r] }

/-- Whether a transaction was committed. -/
def committed (x : Conn Unit) : Conn Bool := fun s =>
  match x s with
  | (.ok (), s') => (.ok true, s')
  | (.error .rollbackTransaction, s') => (.ok false, s')
  | (.error e, s') => (.error e, s')

/-- The closure of a transaction that makes calls. -/
def closure (body : Conn Unit) (commits : Bool) : Conn Unit := do
  body
  if commits then pure () else Prog.stop .rollbackTransaction

/-- Make a sequence of calls. -/
def Calls.run (conn : ConnectionRef) : Calls → Conn Unit
  | done => pure ()
  | call c rest => do
    let r ← conn.call c
    record r
    rest.run conn
  | transaction body commits rest => do
    let b ← committed (conn.transaction (closure (body.run conn) commits))
    record (.transaction b)
    rest.run conn

/-! ## The store -/

/-- A subscription, without its id. -/
structure Entry where
  hub : String
  topic : String
  secret : String
  expiresAt : Option Int64
deriving DecidableEq

/-- A map from ids to subscriptions. -/
abbrev Store := UInt64 → Option Entry

/-- A store, and the random values to come. -/
structure StoreState where
  store : Store
  rng : List UInt64

/-- `deactivate_subscriptions_expire_before` of a subscription. -/
def Entry.deactivate (before : Int64) (e : Entry) : Entry :=
  if ∃ x ∈ e.expiresAt, x ≤ before then { e with expiresAt := none } else e

namespace Store

variable (m : Store)

/-- What a call other than `create_subscription` may return. -/
def Returns : ConnCall → Reply → Prop
  | .createSubscription .., _ => False
  | .getTopic id, r => r = .topic ((m id).map fun e => (e.topic, e.secret))
  | .subscriptionExists id topic, r => r = .flag ((m id).any fun e => e.topic = topic)
  | .getSubscriptionsExpireBefore before, r => ∃ l, r = .subscriptions l ∧
    Lists l {p | ∃ e, m p.1 = some e ∧ p.2 = (e.hub, e.topic) ∧ ∃ x ∈ e.expiresAt, x ≤ before}
  | .getHubOfInactiveSubscription id topic, r =>
    r = .hub (((m id).filter fun e => e.topic = topic ∧ e.expiresAt = none).map Entry.hub)
  | .getOldSubscriptions id hub topic, r => ∃ l, r = .ids l ∧
    Lists l {x | x ≠ id ∧ ∃ e, m x = some e ∧ e.hub = hub ∧ e.topic = topic}
  | .activateSubscription id _, r => r = .flag (m id).isSome
  | .deactivateSubscriptionsExpireBefore _, r => r = .unit
  | .deleteSubscriptions id, r => r = .flag (m id).isSome
  | .getNextExpiry, r => ∃ x, r = .expiry x ∧ Least x {x | ∃ id e, m id = some e ∧ x ∈ e.expiresAt}

/-- The store after a call other than `create_subscription`. -/
def after : ConnCall → Store
  | .activateSubscription id expiresAt =>
    Function.update m id ((m id).map fun e => { e with expiresAt := some expiresAt })
  | .deactivateSubscriptionsExpireBefore before => fun id => (m id).map (Entry.deactivate before)
  | .deleteSubscriptions id => Function.update m id none
  | _ => m

end Store

/-- A call returns `r`, and leaves the state `τ`. A creation takes the first random value
that is no id yet. -/
def ConnCall.Step (c : ConnCall) (σ : StoreState) (r : Reply) (τ : StoreState) : Prop :=
  match c with
  | .createSubscription hub topic secret => ∃ taken id, r = .id id ∧
    σ.rng = taken ++ id :: τ.rng ∧ (∀ x ∈ taken, (σ.store x).isSome) ∧ σ.store id = none ∧
      τ.store = Function.update σ.store id (some ⟨hub, topic, secret, none⟩)
  | c => σ.store.Returns c r ∧ τ = ⟨σ.store.after c, σ.rng⟩

/-- A call does not return, as all random values are ids. -/
def ConnCall.Starves (c : ConnCall) (σ : StoreState) : Prop :=
  match c with
  | .createSubscription .. => ∀ x ∈ σ.rng, (σ.store x).isSome
  | _ => False

/-- A sequence of calls returns the results `rs`, and leaves a state, `none` if it does not
come to its end. A transaction that fails leaves the store it started from. -/
def Calls.Runs : Calls → StoreState → List Reply → Option StoreState → Prop
  | done, σ, rs, o => rs = [] ∧ o = some σ
  | call c rest, σ, rs, o =>
    (c.Starves σ ∧ rs = [] ∧ o = none) ∨
      ∃ r τ rs', c.Step σ r τ ∧ rest.Runs τ rs' o ∧ rs = r :: rs'
  | transaction body commits rest, σ, rs, o =>
    (body.Runs σ rs none ∧ o = none) ∨
      ∃ rs₁ τ rs₂, body.Runs σ rs₁ (some τ) ∧
        rest.Runs ⟨if commits then τ.store else σ.store, τ.rng⟩ rs₂ o ∧
        rs = rs₁ ++ .transaction commits :: rs₂

/-- Two results are the same, lists up to their order. -/
def Reply.Same : Reply → Reply → Prop
  | subscriptions l, subscriptions l' => l.Perm l'
  | ids l, ids l' => l.Perm l'
  | r, r' => r = r'

/-! ## The results are determined -/

theorem Reply.Same.refl (r : Reply) : r.Same r := by
  cases r <;> first | exact List.Perm.refl _ | rfl

theorem Store.returns_unique {m : Store} {c : ConnCall} {r r' : Reply} (h : m.Returns c r)
    (h' : m.Returns c r') : r.Same r' := by
  cases c with
  | createSubscription hub topic secret => exact h.elim
  | getSubscriptionsExpireBefore before =>
    obtain ⟨l, rfl, hl⟩ := h
    obtain ⟨l', rfl, hl'⟩ := h'
    exact hl.perm hl'
  | getOldSubscriptions id hub topic =>
    obtain ⟨l, rfl, hl⟩ := h
    obtain ⟨l', rfl, hl'⟩ := h'
    exact hl.perm hl'
  | getNextExpiry =>
    obtain ⟨x, rfl, hx⟩ := h
    obtain ⟨x', rfl, hx'⟩ := h'
    rw [hx.unique hx']
    exact .refl _
  | _ =>
    obtain rfl : r = r' := h.trans h'.symm
    exact .refl r

/-- The values before the first that is no id, and the value itself. -/
theorem draw_unique {m : Store} {l l' : List UInt64} {x x' : UInt64} {rng rng' : List UInt64}
    (heq : l ++ x :: rng = l' ++ x' :: rng') (hl : ∀ y ∈ l, (m y).isSome)
    (hl' : ∀ y ∈ l', (m y).isSome) (hx : m x = none) (hx' : m x' = none) :
    x = x' ∧ rng = rng' := by
  induction l generalizing l' with
  | nil =>
    cases l' with
    | nil => exact List.cons.inj heq
    | cons y l' =>
      obtain ⟨rfl, -⟩ := List.cons.inj heq
      simpa [hx] using hl' x List.mem_cons_self
  | cons y l ih =>
    cases l' with
    | nil =>
      obtain ⟨rfl, -⟩ := List.cons.inj heq
      simpa [hx'] using hl y List.mem_cons_self
    | cons y' l' =>
      obtain ⟨-, heq⟩ := List.cons.inj heq
      exact ih heq (fun z hz => hl z (List.mem_cons_of_mem _ hz))
        fun z hz => hl' z (List.mem_cons_of_mem _ hz)

namespace ConnCall

variable {c : ConnCall} {σ τ τ' : StoreState} {r r' : Reply}

theorem step_unique (h : c.Step σ r τ) (h' : c.Step σ r' τ') : r.Same r' ∧ τ = τ' := by
  cases c with
  | createSubscription hub topic secret =>
    obtain ⟨taken, id, rfl, hrng, htaken, hid, hstore⟩ := h
    obtain ⟨taken', id', rfl, hrng', htaken', hid', hstore'⟩ := h'
    obtain ⟨rfl, hrest⟩ := draw_unique (hrng.symm.trans hrng') htaken htaken' hid hid'
    refine ⟨.refl _, ?_⟩
    cases τ
    cases τ'
    rw [StoreState.mk.injEq]
    exact ⟨hstore.trans hstore'.symm, hrest⟩
  | _ => exact ⟨Store.returns_unique h.1 h'.1, h.2.trans h'.2.symm⟩

theorem not_starves_of_step (h : c.Step σ r τ) : ¬c.Starves σ := by
  intro hs
  cases c with
  | createSubscription hub topic secret =>
    obtain ⟨taken, id, -, hrng, -, hid, -⟩ := h
    have hsome := hs id (by rw [hrng]; simp)
    rw [hid] at hsome
    cases hsome
  | _ => exact hs

end ConnCall

/-- What a sequence of calls returns is determined up to the order of lists, and what it
leaves is determined. -/
theorem runs_unique : ∀ {calls : Calls} {σ : StoreState} {rs rs' : List Reply}
    {o o' : Option StoreState}, calls.Runs σ rs o → calls.Runs σ rs' o' →
      List.Forall₂ Reply.Same rs rs' ∧ o = o'
  | .done, σ, rs, rs', o, o', h, h' => by
    obtain ⟨rfl, rfl⟩ := h
    obtain ⟨rfl, rfl⟩ := h'
    exact ⟨.nil, rfl⟩
  | .call c rest, σ, rs, rs', o, o', h, h' => by
    rcases h with ⟨hs, rfl, rfl⟩ | ⟨r, τ, l, hstep, hrest, rfl⟩
    · rcases h' with ⟨-, rfl, rfl⟩ | ⟨r', τ', l', hstep', -, -⟩
      · exact ⟨.nil, rfl⟩
      · exact absurd hs (ConnCall.not_starves_of_step hstep')
    · rcases h' with ⟨hs', -, -⟩ | ⟨r', τ', l', hstep', hrest', rfl⟩
      · exact absurd hs' (ConnCall.not_starves_of_step hstep)
      · obtain ⟨hsame, rfl⟩ := ConnCall.step_unique hstep hstep'
        obtain ⟨hl, ho⟩ := runs_unique hrest hrest'
        exact ⟨.cons hsame hl, ho⟩
  | .transaction body commits rest, σ, rs, rs', o, o', h, h' => by
    rcases h with ⟨hb, rfl⟩ | ⟨l₁, τ, l₂, hb, hrest, rfl⟩
    · rcases h' with ⟨hb', rfl⟩ | ⟨l₁', τ', l₂', hb', -, -⟩
      · exact ⟨(runs_unique hb hb').1, rfl⟩
      · exact nomatch (runs_unique hb hb').2
    · rcases h' with ⟨hb', -⟩ | ⟨l₁', τ', l₂', hb', hrest', rfl⟩
      · exact nomatch (runs_unique hb hb').2
      · obtain ⟨hl₁, hτ⟩ := runs_unique hb hb'
        obtain rfl := Option.some_inj.1 hτ
        obtain ⟨hl₂, ho⟩ := runs_unique hrest hrest'
        exact ⟨List.rel_append hl₁ (.cons (.refl _) hl₂), ho⟩

/-! ## The map that a table stands for -/

/-- The subscription of a row. -/
def Row.entry (r : Row) : Entry :=
  ⟨r.hub, r.topic, r.secret, r.expiresAt⟩

/-- The row of a subscription, under its id. -/
def Entry.row (e : Entry) (id : UInt64) : Row :=
  ⟨id.toInt64, e.hub, e.topic, e.secret, e.expiresAt⟩

/-- The map that the table stands for. -/
def Subscriptions.toStore (t : Subscriptions) : Store := fun id =>
  (t.rows.find? fun r => r.id = id.toInt64).map Row.entry

@[simp] theorem Row.row_entry (r : Row) : r.entry.row r.id.toUInt64 = r :=
  rfl

/-- Every id is the `u64` of a key, and no other's. -/
theorem toInt64_eq_iff {id : UInt64} {i : Int64} : id.toInt64 = i ↔ id = i.toUInt64 :=
  ⟨fun h => h ▸ rfl, fun h => h ▸ rfl⟩

theorem toStore_eq_some_iff {t : Subscriptions} {id : UInt64} {e : Entry} :
    t.toStore id = some e ↔ e.row id ∈ t := by
  unfold Subscriptions.toStore
  rw [Option.map_eq_some_iff]
  constructor
  · rintro ⟨r, hr, rfl⟩
    have hid : r.id = id.toInt64 := by simpa using List.find?_some hr
    have hrow : r.entry.row id = r := by
      rw [← UInt64.toUInt64_toInt64 id, ← hid, Row.row_entry]
    rw [hrow]
    exact List.mem_of_find?_eq_some hr
  · intro h
    cases hf : t.rows.find? fun r => r.id = id.toInt64 with
    | none => simpa [Entry.row] using List.find?_eq_none.1 hf _ h
    | some r =>
      have hid : r.id = id.toInt64 := by simpa using List.find?_some hf
      obtain rfl := Table.eq_of_key (List.mem_of_find?_eq_some hf) h hid
      exact ⟨_, rfl, rfl⟩

theorem toStore_eq_none_iff {t : Subscriptions} {id : UInt64} :
    t.toStore id = none ↔ id.toInt64 ∉ t.keys := by
  rw [Subscriptions.toStore, Option.map_eq_none_iff, List.find?_eq_none, Table.keys,
    List.mem_map, not_exists]
  simp

theorem isSome_toStore_iff {t : Subscriptions} {id : UInt64} :
    (t.toStore id).isSome ↔ id.toInt64 ∈ t.keys := by
  rw [← not_iff_not, ← toStore_eq_none_iff, Option.not_isSome_iff_eq_none]

/-- A row is in the table exactly if its subscription is in the map. -/
theorem mem_iff_toStore {t : Subscriptions} {r : Row} :
    r ∈ t ↔ t.toStore r.id.toUInt64 = some r.entry := by
  rw [toStore_eq_some_iff, Row.row_entry]

/-- The subscriptions of an id in the map, as rows of the table. -/
theorem exists_toStore_iff {t : Subscriptions} {id : UInt64} {P : Entry → Prop} :
    (∃ e, t.toStore id = some e ∧ P e) ↔ ∃ r ∈ t, r.id.toUInt64 = id ∧ P r.entry := by
  constructor
  · rintro ⟨e, he, hP⟩
    exact ⟨e.row id, toStore_eq_some_iff.1 he, rfl, hP⟩
  · rintro ⟨r, hr, rfl, hP⟩
    exact ⟨r.entry, mem_iff_toStore.1 hr, hP⟩

/-- Two tables stand for the same map exactly if they have the same rows. -/
theorem toStore_eq_iff {t t' : Subscriptions} :
    t.toStore = t'.toStore ↔ t.rows.Perm t'.rows := by
  have nodup_rows (t : Subscriptions) : t.rows.Nodup := List.Nodup.of_map _ t.nodup
  rw [List.perm_ext_iff_of_nodup (nodup_rows t) (nodup_rows t')]
  constructor
  · intro h r
    rw [← Table.mem_def, ← Table.mem_def, mem_iff_toStore, mem_iff_toStore, h]
  · intro h
    funext id
    refine Option.ext fun e => ?_
    rw [toStore_eq_some_iff, toStore_eq_some_iff]
    exact h _

/-! ## Back ends that implement the store -/

/-- The map and the random values of a session. -/
def Session.state (s : Session) : StoreState :=
  ⟨s.table.toStore, s.rng⟩

/-- The single calls do what the map does, and a transaction that fails restores the table. -/
structure Implements (conn : ConnectionRef) : Prop where
  call : ∀ c s, (∃ r s', conn.call c s = (.ok r, s') ∧ s'.log = s.log ∧ c.Step s.state r s'.state) ∨
    ∃ s', conn.call c s = (.error .starved, s') ∧ s'.log = s.log ∧ c.Starves s.state
  ok_transaction : ∀ {x : Conn Unit} {s s' : Session}, x s = (.ok (), s') →
    conn.transaction x s = (.ok (), s')
  error_transaction : ∀ {x : Conn Unit} {s s' : Session} {e : DieselError}, x s = (.error e, s') →
    conn.transaction x s = (.error e, { s' with table := s.table })

/-- How a run ends, where it should leave the state `o`. -/
def Ends (x : Except DieselError Unit × Session) : Option StoreState → Prop
  | some τ => x.1 = .ok () ∧ x.2.state = τ
  | none => x.1 = .error .starved

/-- A sequence of calls on the connection returns, and leaves, what it may on the map. -/
def RefinesStore (conn : ConnectionRef) (calls : Calls) (s : Session) : Prop :=
  ∃ rs o, calls.Runs s.state rs o ∧ (calls.run conn s).2.log = s.log ++ rs ∧
    Ends (calls.run conn s) o

section Refines

variable {conn : ConnectionRef}

theorem run_call (c : ConnCall) (rest : Calls) (s : Session) :
    (Calls.call c rest).run conn s =
      (conn.call c >>= fun r => record r >>= fun _ => rest.run conn) s :=
  rfl

theorem run_transaction (body rest : Calls) (commits : Bool) (s : Session) :
    (Calls.transaction body commits rest).run conn s =
      (committed (conn.transaction (closure (body.run conn) commits)) >>= fun b =>
        record (.transaction b) >>= fun _ => rest.run conn) s :=
  rfl

/-- The caller goes on with what was returned. -/
theorem refines_rest {rest : Calls} {s : Session} {r : Reply}
    (h : RefinesStore conn rest (record r s).2) :
    ∃ rs o, rest.Runs s.state rs o ∧
      ((record r >>= fun _ => rest.run conn) s).2.log = s.log ++ r :: rs ∧
      Ends ((record r >>= fun _ => rest.run conn) s) o := by
  obtain ⟨rs, o, hruns, hlog, hends⟩ := h
  refine ⟨rs, o, hruns, ?_, hends⟩
  rw [List.append_cons]
  exact hlog

/-- A transaction whose closure makes calls. -/
theorem refines_transaction (hconn : Implements conn) {body : Calls} {s : Session}
    (commits : Bool) (h : RefinesStore conn body s) :
    (∃ s' rs τ, committed (conn.transaction (closure (body.run conn) commits)) s =
        (.ok commits, s') ∧ body.Runs s.state rs (some τ) ∧ s'.log = s.log ++ rs ∧
        s'.state = ⟨if commits then τ.store else s.state.store, τ.rng⟩) ∨
      ∃ s' rs, committed (conn.transaction (closure (body.run conn) commits)) s =
        (.error .starved, s') ∧ body.Runs s.state rs none ∧ s'.log = s.log ++ rs := by
  obtain ⟨rs, o, hruns, hlog, hends⟩ := h
  cases hbody : body.run conn s with
  | mk result s' =>
    rw [hbody] at hlog hends
    cases o with
    | none =>
      obtain rfl : result = .error .starved := hends
      have hclosure : closure (body.run conn) commits s = (.error .starved, s') :=
        Prog.bind_of_error hbody _
      refine .inr ⟨{ s' with table := s.table }, rs, ?_, hruns, hlog⟩
      unfold committed
      rw [hconn.error_transaction hclosure]
    | some τ =>
      obtain ⟨hok, rfl⟩ := hends
      obtain rfl : result = .ok () := hok
      cases commits with
      | true =>
        have hclosure : closure (body.run conn) true s = (.ok (), s') := Prog.bind_of_ok hbody _
        refine .inl ⟨_, rs, _, ?_, hruns, hlog, rfl⟩
        unfold committed
        rw [hconn.ok_transaction hclosure]
      | false =>
        have hclosure : closure (body.run conn) false s = (.error .rollbackTransaction, s') :=
          Prog.bind_of_ok hbody _
        refine .inl ⟨{ s' with table := s.table }, rs, _, ?_, hruns, hlog, rfl⟩
        unfold committed
        rw [hconn.error_transaction hclosure]

/-- A back end whose single calls and transactions do what they should does so for every
sequence of calls. -/
theorem refines_of_implements (hconn : Implements conn) :
    ∀ (calls : Calls) (s : Session), RefinesStore conn calls s
  | .done, s => ⟨[], some s.state, ⟨rfl, rfl⟩, (List.append_nil _).symm, rfl, rfl⟩
  | .call c rest, s => by
    unfold RefinesStore
    rw [run_call]
    rcases hconn.call c s with ⟨r, s', hcall, hlog, hstep⟩ | ⟨s', hcall, hlog, hstarves⟩
    · obtain ⟨rs, o, hruns, hlog', hends⟩ :=
        refines_rest (s := s') (r := r) (refines_of_implements hconn rest _)
      rw [Prog.bind_of_ok hcall]
      exact ⟨r :: rs, o, .inr ⟨r, _, rs, hstep, hruns, rfl⟩, hlog ▸ hlog', hends⟩
    · rw [Prog.bind_of_error hcall]
      exact ⟨[], none, .inl ⟨hstarves, rfl, rfl⟩, hlog.trans (List.append_nil _).symm, rfl⟩
  | .transaction body commits rest, s => by
    unfold RefinesStore
    rw [run_transaction]
    rcases refines_transaction hconn commits (refines_of_implements hconn body s) with
      ⟨s', rs, τ, hx, hruns, hlog, hstate⟩ | ⟨s', rs, hx, hruns, hlog⟩
    · obtain ⟨rs', o, hruns', hlog', hends⟩ := refines_rest (s := s') (r := .transaction commits)
        (refines_of_implements hconn rest _)
      rw [Prog.bind_of_ok hx]
      rw [hlog, List.append_assoc] at hlog'
      rw [hstate] at hruns'
      exact ⟨_, o, .inr ⟨rs, τ, rs', hruns, hruns', rfl⟩, hlog', hends⟩
    · rw [Prog.bind_of_error hx]
      exact ⟨rs, none, .inl ⟨hruns, rfl⟩, hlog, rfl⟩

end Refines

/-- Two runs end alike : they return the same results, and if they come to their end they
leave the same rows. -/
structure SameRun (x y : Except DieselError Unit × Session) : Prop where
  result : x.1 = y.1
  log : List.Forall₂ Reply.Same x.2.log y.2.log
  table : x.1 = .ok () → x.2.table.rows.Perm y.2.table.rows
  rng : x.1 = .ok () → x.2.rng = y.2.rng

/-- Two back ends that refine the map agree. -/
theorem sameRun_of_refines {conn conn' : ConnectionRef} {calls : Calls} {t t' : Subscriptions}
    (ht : t.rows.Perm t'.rows) {rng : List UInt64} (h : RefinesStore conn calls (.start t rng))
    (h' : RefinesStore conn' calls (.start t' rng)) :
    SameRun (calls.run conn (.start t rng)) (calls.run conn' (.start t' rng)) := by
  obtain ⟨rs, o, hruns, hlog, hends⟩ := h
  obtain ⟨rs', o', hruns', hlog', hends'⟩ := h'
  have hstate : (Session.start t rng).state = (Session.start t' rng).state :=
    congrArg (StoreState.mk · rng) (toStore_eq_iff.2 ht)
  rw [← hstate] at hruns'
  obtain ⟨hsame, rfl⟩ := runs_unique hruns hruns'
  cases o with
  | none =>
    refine ⟨hends.trans hends'.symm, ?_, fun h => ?_, fun h => ?_⟩
    · rw [hlog, hlog']
      exact hsame
    · cases hends.symm.trans h
    · cases hends.symm.trans h
  | some τ =>
    have heq := hends.2.trans hends'.2.symm
    refine ⟨hends.1.trans hends'.1.symm, ?_, fun _ => ?_, fun _ => ?_⟩
    · rw [hlog, hlog']
      exact hsame
    · exact toStore_eq_iff.1 (congrArg StoreState.store heq)
    · exact congrArg StoreState.rng heq

end Websub
