import Websub.Diesel
import Websub.Tick

/-!
# The connection of the services as a back end

The calls of `Websub.Db`, over which the services are written, are those of the back end
for Diesel 2 where no statement fails and each scan meets the rows in the order of the table
(`simulates_diesel2`). So each of them does what the map of ids to subscriptions does
(`step_makeCall`).
-/

namespace Websub

open Tables Programs Sql

variable {τ α : Type}

/-- The connection of a service where no statement fails, and a session on the same table
with the same random values. -/
def SameTable (w : World τ) (s : Session) : Prop :=
  w.store = s.table ∧ w.rng = s.rng ∧ ∀ n, w.faults n = none

/-- The reasons for which both may stop. -/
def SameStop (e : Stop) (d : DieselError) : Prop :=
  e = .starved ∧ d = .starved

/-! ## Queries and statements -/

section Statements

theorem simulates_statement {f : Subscriptions → α × Subscriptions} {y : Conn α}
    (h : ∀ s, ∃ s', y s = (.ok (f s.table).1, s') ∧ s'.table = (f s.table).2 ∧ s'.rng = s.rng) :
    Prog.Simulates SameTable SameStop (statement f : Db τ α) y := by
  rintro w s ⟨hstore, hrng, hf⟩
  obtain ⟨s', hs', htable, hrng'⟩ := h s
  rw [hs', statement, hf, hstore]
  exact .ok ⟨htable.symm, hrng.trans hrng'.symm, hf⟩

theorem simulates_query {f : Subscriptions → α} {y : Conn α}
    (h : ∀ s, y s = (.ok (f s.table), s.next)) :
    Prog.Simulates SameTable SameStop (query f : Db τ α) y :=
  simulates_statement fun s => ⟨s.next, h s, rfl, rfl⟩

end Statements

/-! ## Scans in order -/

/-- The next expiry is the least one, if there is one. -/
theorem least_getNextExpiry (t : Subscriptions) :
    Least t.getNextExpiry {x | ∃ r ∈ t, r.expiresAt = some x} := by
  cases hm : t.getNextExpiry with
  | none =>
    refine Set.eq_empty_of_forall_notMem fun x => ?_
    rintro ⟨r, hr, hx⟩
    rw [getNextExpiry_eq_none_iff.1 hm r hr] at hx
    cases hx
  | some m =>
    refine ⟨exists_of_getNextExpiry hm, ?_⟩
    rintro x ⟨r, hr, hx⟩
    obtain ⟨m', hm', hle⟩ := exists_getNextExpiry hr hx
    obtain rfl := Option.some_inj.1 (hm.symm.trans hm')
    exact hle

namespace Diesel2

variable {s : Session}

theorem getTopic_inOrder (id : UInt64) :
    getTopic .inOrder id s = (.ok (s.table.getTopic id), s.next) := by
  have hselects : (Diesel.find (Query.table.select fun r : Row => (r.topic, r.secret))
      id.toInt64).selects = fun r => decide (r.id = id.toInt64) := by
    ext r
    simp [Diesel.find]
  unfold getTopic
  rw [optional_getResult, Query.result_of_unordered rfl rfl, hselects, List.head?_map]
  rfl

theorem subscriptionExists_inOrder (id : UInt64) (topic : String) :
    subscriptionExists .inOrder id topic s =
      (.ok (s.table.subscriptionExists id topic), s.next) := by
  have hselects : ((Diesel.find .table id.toInt64).filter fun r : Row =>
      Sql.eq (some r.topic) (some topic)).selects =
        fun r => decide (r.id = id.toInt64) && decide (r.topic = topic) := by
    ext r
    simp [Diesel.find]
  have hempty {β : Type} (l : List Row) (f : Row → β) : (!(l.map f).isEmpty) = decide (l ≠ []) := by
    cases l <;> rfl
  rw [subscriptionExists, Diesel.selectExists, Prog.bind_of_ok (load_eq _), Prog.pure_apply,
    Query.result_of_unordered rfl rfl, hselects, hempty]
  rfl

/-- The condition on the expiry, as the table has it. -/
theorem selects_expiresBefore (before : Int64) :
    (Query.table.filter fun r : Row => Sql.le r.expiresAt (some before)).selects =
      fun r => r.expiresBefore before := by
  ext r
  rw [Bool.eq_iff_iff, Query.selects_filter, Query.selects_table, Bool.true_and, holds_le_iff,
    Row.expiresBefore]
  cases r.expiresAt <;> simp

theorem getSubscriptionsExpireBefore_inOrder (before : Int64) :
    getSubscriptionsExpireBefore .inOrder before s =
      (.ok (s.table.getSubscriptionsExpireBefore before), s.next) := by
  rw [getSubscriptionsExpireBefore_eq, Diesel1.getSubscriptionsExpireBefore,
    Prog.bind_of_ok (load_eq _), Prog.pure_apply, Query.result_of_unordered rfl rfl,
    Query.selects_select, selects_expiresBefore, List.map_map, List.map_map]
  rfl

theorem getHubOfInactiveSubscription_inOrder (id : UInt64) (topic : String) :
    getHubOfInactiveSubscription .inOrder id topic s =
      (.ok (s.table.getHubOfInactiveSubscription id topic), s.next) := by
  have hselects : ((((Diesel.find .table id.toInt64).filter fun r : Row =>
      Sql.eq (some r.topic) (some topic)).filter fun r => isNull r.expiresAt).select
        Row.hub).selects =
      fun r => r.id = id.toInt64 && r.topic = topic && r.expiresAt.isNone := by
    ext r
    simp [Diesel.find]
  rw [getHubOfInactiveSubscription, optional_getResult, Query.result_of_unordered rfl rfl,
    hselects, List.head?_map]
  rfl

theorem getOldSubscriptions_inOrder (id : UInt64) (hub topic : String) :
    getOldSubscriptions .inOrder id hub topic s =
      (.ok (s.table.getOldSubscriptions id hub topic), s.next) := by
  have hselects : ((((Query.table.filter fun r : Row => Sql.eq (some r.hub) (some hub)).filter
      fun r => Sql.eq (some r.topic) (some topic)).filter fun r =>
        Sql.not (Sql.eq (some r.id) (some id.toInt64))).select Row.id).selects =
      fun r => r.hub = hub && r.topic = topic && r.id ≠ id.toInt64 := by
    ext r
    simp
  rw [getOldSubscriptions_eq, Diesel1.getOldSubscriptions, Prog.bind_of_ok (load_eq _),
    Prog.pure_apply, Query.result_of_unordered rfl rfl, hselects, List.map_map]
  rfl

theorem getNextExpiry_inOrder :
    getNextExpiry .inOrder s = (.ok s.table.getNextExpiry, s.next) := by
  obtain ⟨x, hx, hleast⟩ := Diesel1.getNextExpiry_spec (s := s) .inOrder
  rw [expiries_eq] at hleast
  rw [getNextExpiry_apply, ← Diesel1.getNextExpiry_apply, hx,
    hleast.unique (least_getNextExpiry s.table)]

/-- Whether a row has an id, from the number of rows a statement is about. -/
theorem length_select_find (t : Subscriptions) (id : UInt64) :
    decide ((t.select (Diesel.find .table id.toInt64 : Query Row Row).selects).length ≠ 0) =
      decide (id.toInt64 ∈ t.keys) := by
  rw [length_select_ne_zero (Diesel1.selects_find id), Bool.eq_iff_iff, isSome_toStore_iff,
    decide_eq_true_iff]

theorem activateSubscription_apply (id : UInt64) (expiresAt : Int64) (s : Session) :
    activateSubscription id expiresAt s =
      (.ok (s.table.activateSubscription id expiresAt).1,
        { s with table := (s.table.activateSubscription id expiresAt).2 }) := by
  refine (Prog.map_of_ok rfl _).trans ?_
  rw [length_select_find, Diesel1.selects_find_eq]
  rfl

theorem deactivateSubscriptionsExpireBefore_apply (before : Int64) (s : Session) :
    deactivateSubscriptionsExpireBefore before s =
      (.ok (), { s with table := s.table.deactivateSubscriptionsExpireBefore before }) := by
  refine (Prog.map_of_ok rfl _).trans ?_
  rw [selects_expiresBefore]
  rfl

theorem deleteSubscriptions_apply (id : UInt64) (s : Session) :
    deleteSubscriptions id s =
      (.ok (s.table.deleteSubscriptions id).1,
        { s with table := (s.table.deleteSubscriptions id).2 }) := by
  refine (Prog.map_of_ok rfl _).trans ?_
  rw [length_select_find, Diesel1.selects_find_eq]
  rfl

end Diesel2

/-! ## Transactions -/

section Transactions

/-- The loops meet the same random values, and insert under the same id. -/
theorem simulates_insertLoop (hub topic secret : String) : ∀ (rng : List UInt64) (w : World τ)
    (s : Session), w.store = s.table → w.rng = rng → s.rng = rng → (∀ n, w.faults n = none) →
    Prog.Alike SameTable SameStop (insertLoop hub topic secret rng w)
      (Diesel.createLoop hub topic secret rng s)
  | [], w, s, hstore, hw, hs, hf => .error ⟨rfl, rfl⟩ ⟨hstore, hw.trans hs.symm, hf⟩
  | id :: rng, w, s, hstore, hw, hs, hf => by
    simp only [insertLoop, Diesel.createLoop, Diesel.insertInto, hf, hstore]
    cases s.table.insert ⟨id.toInt64, hub, topic, secret, none⟩ with
    | some u => exact .ok ⟨rfl, rfl, hf⟩
    | none => exact simulates_insertLoop hub topic secret rng _ { s with rng } hstore rfl rfl hf

/-- What is saved when a transaction opens is the table that Diesel goes back to. -/
theorem simulates_transaction {x : Db τ α} {y : Conn α} (hx : Keeps x)
    (h : Prog.Simulates SameTable SameStop x y) :
    Prog.Simulates SameTable SameStop (transaction x) (Diesel.transaction y) := by
  rintro w s ⟨hstore, hrng, hf⟩
  have hopened : SameTable w.opened s := ⟨hstore, hrng, hf⟩
  have hend := h w.opened s hopened
  have hkeeps := hx w.opened
  rw [transaction, Diesel.transaction]
  simp only [hf]
  cases hxw : x w.opened with
  | mk r w' =>
    cases hys : y s with
    | mk q s' =>
      rw [hxw, hys] at hend
      rw [hxw] at hkeeps
      have hsaved : w'.rollback = s.table := by
        unfold World.rollback
        rw [hkeeps.saved, World.opened, World.observe, List.headD_cons, hstore]
      cases hend with
      | ok hsame =>
        simp only [hsame.2.2]
        exact .ok hsame
      | error he hsame => exact .error he ⟨hsaved, hsame.2.1, hsame.2.2⟩

end Transactions

/-- What the connection of the services has in common with a back end : each of its calls is
simulated by that of the back end. -/
structure SimulatedBy (τ : Type) (c : ConnectionRef) : Prop where
  transaction {α : Type} {x : Db τ α} {y : Conn α} : Keeps x →
    Prog.Simulates SameTable SameStop x y →
    Prog.Simulates SameTable SameStop (transaction x) (c.transaction y)
  createSubscription (hub topic secret : String) : Prog.Simulates SameTable SameStop
    (createSubscription hub topic secret : Db τ _) (c.createSubscription hub topic secret)
  getTopic (id : UInt64) :
    Prog.Simulates SameTable SameStop (getTopic id : Db τ _) (c.getTopic id)
  subscriptionExists (id : UInt64) (topic : String) : Prog.Simulates SameTable SameStop
    (subscriptionExists id topic : Db τ _) (c.subscriptionExists id topic)
  getSubscriptionsExpireBefore (before : Int64) : Prog.Simulates SameTable SameStop
    (getSubscriptionsExpireBefore before : Db τ _) (c.getSubscriptionsExpireBefore before)
  getHubOfInactiveSubscription (id : UInt64) (topic : String) : Prog.Simulates SameTable SameStop
    (getHubOfInactiveSubscription id topic : Db τ _) (c.getHubOfInactiveSubscription id topic)
  getOldSubscriptions (id : UInt64) (hub topic : String) : Prog.Simulates SameTable SameStop
    (getOldSubscriptions id hub topic : Db τ _) (c.getOldSubscriptions id hub topic)
  activateSubscription (id : UInt64) (expiresAt : Int64) : Prog.Simulates SameTable SameStop
    (activateSubscription id expiresAt : Db τ _) (c.activateSubscription id expiresAt)
  deactivateSubscriptionsExpireBefore (before : Int64) : Prog.Simulates SameTable SameStop
    (deactivateSubscriptionsExpireBefore before : Db τ _)
    (c.deactivateSubscriptionsExpireBefore before)
  deleteSubscriptions (id : UInt64) :
    Prog.Simulates SameTable SameStop (deleteSubscriptions id : Db τ _) (c.deleteSubscriptions id)
  getNextExpiry : Prog.Simulates SameTable SameStop (getNextExpiry : Db τ _) c.getNextExpiry

/-- The connection of the services is the second back end, with scans in order. -/
theorem simulates_diesel2 (τ : Type) : SimulatedBy τ (diesel2 .inOrder) where
  transaction := simulates_transaction
  createSubscription hub topic secret := by
    refine simulates_transaction (fun w => keeps_insertLoop hub topic secret w.rng w) ?_
    rintro w s ⟨hstore, hrng, hf⟩
    change Prog.Alike SameTable SameStop (insertLoop hub topic secret w.rng w)
      (Diesel.createLoop hub topic secret s.rng s)
    rw [← hrng]
    exact simulates_insertLoop hub topic secret w.rng w s hstore rfl hrng.symm hf
  getTopic id := simulates_query fun _ => Diesel2.getTopic_inOrder id
  subscriptionExists id topic :=
    simulates_query fun _ => Diesel2.subscriptionExists_inOrder id topic
  getSubscriptionsExpireBefore before :=
    simulates_query fun _ => Diesel2.getSubscriptionsExpireBefore_inOrder before
  getHubOfInactiveSubscription id topic :=
    simulates_query fun _ => Diesel2.getHubOfInactiveSubscription_inOrder id topic
  getOldSubscriptions id hub topic :=
    simulates_query fun _ => Diesel2.getOldSubscriptions_inOrder id hub topic
  activateSubscription id expiresAt :=
    simulates_statement fun s => ⟨_, Diesel2.activateSubscription_apply id expiresAt s, rfl, rfl⟩
  deactivateSubscriptionsExpireBefore before :=
    simulates_statement fun s =>
      ⟨_, Diesel2.deactivateSubscriptionsExpireBefore_apply before s, rfl, rfl⟩
  deleteSubscriptions id :=
    simulates_statement fun s => ⟨_, Diesel2.deleteSubscriptions_apply id s, rfl, rfl⟩
  getNextExpiry := simulates_query fun _ => Diesel2.getNextExpiry_inOrder

/-! ## The map -/

/-- Make a call on the connection of a service. -/
def makeCall : ConnCall → Db τ Reply
  | .createSubscription hub topic secret => .id <$> createSubscription hub topic secret
  | .getTopic id => .topic <$> getTopic id
  | .subscriptionExists id topic => .flag <$> subscriptionExists id topic
  | .getSubscriptionsExpireBefore before => .subscriptions <$> getSubscriptionsExpireBefore before
  | .getHubOfInactiveSubscription id topic => .hub <$> getHubOfInactiveSubscription id topic
  | .getOldSubscriptions id hub topic => .ids <$> getOldSubscriptions id hub topic
  | .activateSubscription id expiresAt => .flag <$> activateSubscription id expiresAt
  | .deactivateSubscriptionsExpireBefore before =>
    (fun _ => .unit) <$> deactivateSubscriptionsExpireBefore before
  | .deleteSubscriptions id => .flag <$> deleteSubscriptions id
  | .getNextExpiry => .expiry <$> getNextExpiry

theorem SimulatedBy.makeCall {conn : ConnectionRef} (h : SimulatedBy τ conn) (c : ConnCall) :
    Prog.Simulates SameTable SameStop (makeCall c : Db τ Reply) (conn.call c) := by
  cases c with
  | createSubscription hub topic secret => exact (h.createSubscription hub topic secret).map _
  | getTopic id => exact (h.getTopic id).map _
  | subscriptionExists id topic => exact (h.subscriptionExists id topic).map _
  | getSubscriptionsExpireBefore before => exact (h.getSubscriptionsExpireBefore before).map _
  | getHubOfInactiveSubscription id topic =>
    exact (h.getHubOfInactiveSubscription id topic).map _
  | getOldSubscriptions id hub topic => exact (h.getOldSubscriptions id hub topic).map _
  | activateSubscription id expiresAt => exact (h.activateSubscription id expiresAt).map _
  | deactivateSubscriptionsExpireBefore before =>
    exact (h.deactivateSubscriptionsExpireBefore before).map _
  | deleteSubscriptions id => exact (h.deleteSubscriptions id).map _
  | getNextExpiry => exact h.getNextExpiry.map _

/-- The map and the random values of a connection. -/
def World.state (w : World τ) : StoreState :=
  ⟨w.store.toStore, w.rng⟩

/-- Where no statement fails, a call on the connection of a service does what the map does. -/
theorem step_makeCall (c : ConnCall) (w : World τ) (hf : ∀ n, w.faults n = none) :
    (∃ r w', makeCall c w = (.ok r, w') ∧ c.Step w.state r w'.state) ∨
      ∃ w', makeCall c w = (.error .starved, w') ∧ c.Starves w.state := by
  have hstate {w : World τ} {s : Session} (h : SameTable w s) : w.state = s.state := by
    unfold World.state Session.state
    rw [h.1, h.2.1]
  have hstart : SameTable w (.start w.store w.rng) := ⟨rfl, rfl, hf⟩
  have hend := (simulates_diesel2 τ).makeCall c w _ hstart
  rw [hstate hstart]
  rcases (implements_diesel2 .inOrder).call c (.start w.store w.rng) with
    ⟨r, s', hrun, -, hstep⟩ | ⟨s', hrun, -, hstarves⟩
  · rw [hrun] at hend
    cases hw : Websub.makeCall c w with
    | mk q w' =>
      rw [hw] at hend
      cases hend with
      | ok hsame => exact .inl ⟨r, w', rfl, hstate hsame ▸ hstep⟩
  · rw [hrun] at hend
    cases hw : Websub.makeCall c w with
    | mk q w' =>
      rw [hw] at hend
      cases hend with
      | error he hsame => exact .inr ⟨w', by rw [he.1], hstarves⟩

end Websub
