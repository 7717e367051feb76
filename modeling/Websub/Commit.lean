import Websub.Service

/-!
# Requests before the commit

`renew_subscriptions` and `verify_intent` spawn the requests to the hub inside the
transaction that changes the rows the requests are about. `Told` is what a hub may be told
while a store is committed : to subscribe to a row that is there, to unsubscribe from one
that is not.

The calls meet it exactly when they spawn nothing at all (`toldCommitted_iff`) : the first
request is spawned when nothing of the transaction is committed, and any later statement
can still roll it back. `RenewSpawns` and `VerifySpawns` say for which stores, failing
statements and random values a call gets as far as its first request, and
`Service.Activates` when the transaction of `verify_intent` gets to its end
(`Service.returns_activate`).
-/

namespace Websub

open Tables Programs Http

variable {cs : Charset} {τ α β : Type}

/-! ## The property -/

/-- What the request tells the hub is true of the store. -/
def Told (t : Subscriptions) (task : Task cs) : Prop :=
  match task.form with
  | .subscribe .. => task.id.toInt64 ∈ t.keys
  | .unsubscribe .. => task.id.toInt64 ∉ t.keys

/-- At every moment of the run every request that can be sent tells what is committed, and
if the call returns an error nothing is committed and no request can be sent. -/
def ToldCommitted (t : Subscriptions) (r : Except Stop α × World (Task cs)) : Prop :=
  (∀ m ∈ r.2.moments, ∀ task ∈ m.spawned, Told m.committed task) ∧
    ∀ e, r.1 = .error (.error e) → r.2.committed = t ∧ r.2.spawned = []

/-- The id has no row. -/
def Subscriptions.free (t : Subscriptions) (id : UInt64) : Bool :=
  id.toInt64 ∉ t.keys

/-- `renew_subscriptions` gets to its first request : some subscription expires, an id is
drawn that is free, and the statements before the request do not fail. -/
def RenewSpawns (env : Env) (service : Service cs) (t : Subscriptions) (faults : ℕ → Option ℕ)
    (rng : List UInt64) (now : UInt64) : Prop :=
  ∃ threshold p l, renewalThreshold env service.renewalMargin now = some threshold ∧
    t.getSubscriptionsExpireBefore threshold = p :: l ∧ (∃ id ∈ rng, t.free id = true) ∧
    (∀ n ≤ rng.findIdx t.free + 4, faults n = none) ∧ service.callback.hasPath = true ∧
    env.isUri p.2.1 = true

/-- `verify_intent` gets to its first request : the inactive subscription is found, there
is an old one, and the statements before the request do not fail. -/
def VerifySpawns (env : Env) (service : Service cs) (t : Subscriptions) (faults : ℕ → Option ℕ)
    (now id : UInt64) : Option Verify → Prop
  | some (.subscribe topic _ leaseSeconds) =>
    ∃ hub tick old l, t.getHubOfInactiveSubscription id topic = some hub ∧
      service.refreshTime env (expiryOf now leaseSeconds).toUInt64 = some tick ∧
      t.getOldSubscriptions id hub topic = old :: l ∧ (∀ n ≤ 3, faults n = none) ∧
      service.callback.hasPath = true ∧ env.isUri hub = true
  | _ => False

/-! ## Calls that spawn -/

/-- The call spawns a future. -/
def Spawns (x : Db τ α) (w : World τ) : Prop :=
  (x w).2.spawned ≠ w.spawned

/-- The call never spawns a future. -/
def Quiet (x : Db τ α) : Prop :=
  ∀ w, (x w).2.spawned = w.spawned

/-- A statement spawns nothing. -/
theorem quiet_statement (f : Subscriptions → α × Subscriptions) :
    Quiet (statement f : Db τ α) := by
  intro w
  unfold statement
  split <;> rfl

theorem quiet_stop (e : Stop) : Quiet (Prog.stop e : Db τ α) := fun _ => rfl

theorem Quiet.bind {x : Db τ α} {f : α → Db τ β} (hx : Quiet x) (hf : ∀ a, Quiet (f a)) :
    Quiet (x >>= f) :=
  Prog.Within.bind (R := fun w w' : World τ => w'.spawned = w.spawned)
    (fun _ _ _ h h' => h'.trans h) hx hf

/-- Drawing ids spawns nothing. -/
theorem quiet_insertLoop (hub topic secret : String) :
    ∀ rng, Quiet (insertLoop hub topic secret rng : Db τ UInt64)
  | [] => quiet_stop _
  | id :: rng => by
    intro w
    unfold insertLoop
    split
    · rfl
    · split
      · rfl
      · exact quiet_insertLoop hub topic secret rng _

/-- A transaction that opens is its closure run inside it, closed with some store. -/
theorem exists_closed (x : Db τ α) {w : World τ} (h : w.faults w.stmts = none) :
    ∃ t, (transaction x w).2 = (x w.opened).2.closed t := by
  simp only [transaction, h]
  cases x w.opened with
  | mk r v =>
    cases r with
    | ok a =>
      cases hv : v.faults v.stmts with
      | some code => exact ⟨v.rollback, by simp [hv]⟩
      | none => exact ⟨v.store, by simp [hv]⟩
    | error e => exact ⟨v.rollback, rfl⟩

/-- A transaction spawns if it opens and its closure spawns. -/
theorem spawns_transaction {x : Db τ α} {w : World τ} :
    Spawns (transaction x) w ↔ w.faults w.stmts = none ∧ Spawns x w.opened := by
  cases h : w.faults w.stmts with
  | some code =>
    have : (transaction x w).2.spawned = w.spawned := by simp [transaction, h, World.observe]
    simp [Spawns, this]
  | none =>
    obtain ⟨t, ht⟩ := exists_closed x h
    simp [Spawns, ht, World.closed, World.opened, World.observe]

theorem Quiet.transaction {x : Db τ α} (hx : Quiet x) : Quiet (transaction x) := by
  intro w
  by_contra h
  exact (spawns_transaction.1 h).2 (hx _)

/-- What spawns after a quiet call spawns after it has returned. -/
theorem spawns_bind {x : Db τ α} {f : α → Db τ β} (hx : Quiet x) {w : World τ} :
    Spawns (x >>= f) w ↔ ∃ a v, x w = (.ok a, v) ∧ Spawns (f a) v := by
  cases hxw : x w with
  | mk r v =>
    have h : v.spawned = w.spawned := by simpa [hxw] using hx w
    cases r with
    | ok a => simp [Spawns, Prog.bind_of_ok hxw, h]
    | error e => simp [Spawns, Prog.bind_of_error hxw, h]

/-- A quiet call that makes a future, and spawns it. -/
theorem spawns_bind_spawn {x : Db τ τ} (hx : Quiet x) {w : World τ} :
    Spawns (x >>= fun task => spawn task) w ↔ ∃ task v, x w = (.ok task, v) := by
  rw [spawns_bind hx]
  refine exists_congr fun task => exists_congr fun v => and_iff_left_of_imp fun _ => ?_
  simp [Spawns, spawn, World.observe]

/-- The state after a query. -/
def World.queried (w : World τ) : World τ :=
  { w with stmts := w.stmts + 1 }.observe

/-- A query that does not fail returns what it selects. -/
theorem query_of_none (f : Subscriptions → α) {w : World τ} (h : w.faults w.stmts = none) :
    query f w = (.ok (f w.store), w.queried) := by
  unfold query statement
  rw [h]
  rfl

/-- A query spawns nothing before the call that takes its value. -/
theorem spawns_query_bind {f : Subscriptions → α} {g : α → Db τ β} {w : World τ} :
    Spawns (query f >>= g) w ↔ w.faults w.stmts = none ∧ Spawns (g (f w.store)) w.queried := by
  cases h : w.faults w.stmts with
  | some code =>
    have hq : Quiet (query f : Db τ α) := quiet_statement _
    rw [spawns_bind hq]
    simp [query, statement, h]
  | none => simp [Spawns, Prog.bind_of_ok (query_of_none f h), World.queried, World.observe]

/-- A quiet call spawns nothing after the call that gives it a value. -/
theorem spawns_bind_quiet {x : Db τ α} {f : α → Db τ β} (hf : ∀ a, Quiet (f a)) {w : World τ} :
    Spawns (x >>= f) w ↔ Spawns x w := by
  unfold Spawns
  rw [Prog.bind_apply]
  cases x w with
  | mk r v =>
    cases r with
    | ok a => exact not_congr (by rw [hf a v])
    | error e => rfl

/-- What was spawned stays so. -/
theorem Spawns.bind {x : Db τ α} {f : α → Db τ β} {w : World τ} (h : Spawns x w) (hx : Keeps x)
    (hf : ∀ a, Keeps (f a)) : Spawns (x >>= f) w := by
  have hpre := (hx w).spawned
  unfold Spawns
  rw [Prog.bind_apply]
  cases hxw : x w with
  | mk r v =>
    unfold Spawns at h
    rw [hxw] at h
    rw [hxw] at hpre
    cases r with
    | ok a =>
      intro he
      have hle := ((hf a v).spawned).length_le
      rw [he] at hle
      exact h (hpre.eq_of_length_le hle).symm
    | error e => exact h

/-- A loop that makes a future and spawns it in each round spawns if it makes the first
one. -/
theorem spawns_each_cons {x : β → Db τ τ} (hq : ∀ b, Quiet (x b)) (hk : ∀ b, Keeps (x b)) {b : β}
    {bs : List β} {w : World τ} :
    Spawns (Prog.each (b :: bs) fun b => x b >>= fun task => spawn task) w ↔
      ∃ task v, x b w = (.ok task, v) := by
  constructor
  · intro h
    rw [Prog.each, Prog.bind_assoc, spawns_bind (hq b)] at h
    obtain ⟨task, v, hx, -⟩ := h
    exact ⟨task, v, hx⟩
  · intro h
    exact ((spawns_bind_spawn (hq b)).2 h).bind ((hk b).bind keeps_spawn) fun _ =>
      Keeps.each (fun b => (hk b).bind keeps_spawn) bs

/-! ## When calls return -/

/-- The call returns a value. -/
def Returns (x : Db τ α) (w : World τ) : Prop :=
  ∃ a v, x w = (.ok a, v)

/-- A sequence returns if its parts do. -/
theorem returns_bind {x : Db τ α} {f : α → Db τ β} {w : World τ} :
    Returns (x >>= f) w ↔ ∃ a v, x w = (.ok a, v) ∧ Returns (f a) v := by
  constructor
  · rintro ⟨b, u, h⟩
    obtain ⟨a, v, hx, hf⟩ := Prog.ok_of_bind h
    exact ⟨a, v, hx, b, u, hf⟩
  · rintro ⟨a, v, hx, b, u, hf⟩
    exact ⟨b, u, by rw [Prog.bind_of_ok hx, hf]⟩

/-- A statement returns unless it fails. -/
theorem returns_statement {f : Subscriptions → α × Subscriptions} {w : World τ} :
    Returns (statement f) w ↔ w.faults w.stmts = none := by
  unfold Returns statement
  cases w.faults w.stmts <;> simp

/-- A call that begins with a statement returns if that does, and what follows it. -/
theorem ok_statement_bind_iff {f : Subscriptions → α × Subscriptions} {g : α → Db τ β}
    {w v : World τ} {b : β} : (statement f >>= g) w = (.ok b, v) ↔ w.faults w.stmts = none ∧
      g (f w.store).1 { w with stmts := w.stmts + 1, store := (f w.store).2 }.observe =
        (.ok b, v) := by
  rw [Prog.bind_apply]
  unfold statement
  cases w.faults w.stmts <;> simp

/-- A transaction returns if `BEGIN` and `COMMIT` do not fail, and the closure returns. -/
theorem returns_transaction {x : Db τ α} {w : World τ} :
    Returns (transaction x) w ↔ w.faults w.stmts = none ∧
      ∃ a v, x w.opened = (.ok a, v) ∧ v.faults v.stmts = none := by
  cases h : w.faults w.stmts with
  | some code => simp [Returns, transaction, h]
  | none =>
    cases hx : x w.opened with
    | mk r v =>
      cases r with
      | ok a =>
        cases hv : v.faults v.stmts <;> simp [Returns, transaction, h, hx, hv]
      | error e => simp [Returns, transaction, h, hx]

/-- No failure up to some statement, apart from the first one. -/
theorem none_upto_succ {faults : ℕ → Option ℕ} {k m : ℕ} :
    (∀ n ≤ m + 1, faults (k + n) = none) ↔
      faults k = none ∧ ∀ n ≤ m, faults (k + 1 + n) = none := by
  have hk (n : ℕ) : k + (n + 1) = k + 1 + n := by omega
  constructor
  · exact fun h => ⟨h 0 (by omega), fun n hn => hk n ▸ h (n + 1) (by omega)⟩
  · rintro ⟨h0, h⟩ (_ | n) hn
    · exact h0
    · exact (hk n).symm ▸ h n (by omega)

/-- The loop of `create_subscription` returns, and the statement after it does not fail. -/
theorem returns_insertLoop {hub topic secret : String} :
    ∀ {rng : List UInt64} {w : World τ},
      (∃ id v, insertLoop hub topic secret rng w = (.ok id, v) ∧ v.faults v.stmts = none) ↔
        (∃ id ∈ rng, w.store.free id = true) ∧
          ∀ n ≤ rng.findIdx w.store.free + 1, w.faults (w.stmts + n) = none
  | [], w => by simp [insertLoop]
  | id :: rng, w => by
    unfold insertLoop
    rw [none_upto_succ]
    cases h0 : w.faults w.stmts with
    | some code => simp
    | none =>
      cases hins : w.store.insert ⟨id.toInt64, hub, topic, secret, none⟩ with
      | some t =>
        have hfree : w.store.free id = true := by
          simpa [Subscriptions.free] using Table.not_mem_of_insert hins
        simp [hfree, List.findIdx_cons, World.drawn, World.observe]
      | none =>
        have hfree : w.store.free id = false := by
          simpa [Subscriptions.free] using Table.insert_eq_none_iff.1 hins
        have ih : (∃ id v, insertLoop hub topic secret rng (w.drawn rng).observe = (.ok id, v) ∧
            v.faults v.stmts = none) ↔ (∃ id ∈ rng, w.store.free id = true) ∧
              ∀ n ≤ rng.findIdx w.store.free + 1, w.faults (w.stmts + 1 + n) = none :=
          returns_insertLoop
        simpa [hfree, List.findIdx_cons] using ih

theorem quiet_createSubscription (hub topic secret : String) :
    Quiet (createSubscription hub topic secret : Db τ UInt64) :=
  Quiet.transaction fun w => quiet_insertLoop hub topic secret w.rng w

theorem returns_createSubscription {hub topic secret : String} {w : World τ} :
    Returns (createSubscription hub topic secret) w ↔ (∃ id ∈ w.rng, w.store.free id = true) ∧
      ∀ n ≤ w.rng.findIdx w.store.free + 2, w.faults (w.stmts + n) = none := by
  refine returns_transaction.trans ?_
  have h : (∃ id v, insertLoop hub topic secret w.opened.rng w.opened = (.ok id, v) ∧
      v.faults v.stmts = none) ↔ (∃ id ∈ w.rng, w.store.free id = true) ∧
        ∀ n ≤ w.rng.findIdx w.store.free + 1, w.faults (w.stmts + 1 + n) = none :=
    returns_insertLoop
  rw [h, and_left_comm]
  exact and_congr_right fun _ => none_upto_succ.symm

section Spawning

variable (env : Env) (service : Service cs)

namespace Hub

theorem quiet_sendRequest (id : UInt64) (hub : String) (form : Form cs) :
    Quiet (sendRequest env id hub form) := by
  intro w
  unfold sendRequest
  split <;> rfl

theorem quiet_subscribe (callback : Uri cs) (hub topic : String) :
    Quiet (subscribe env callback hub topic) := by
  refine Quiet.bind (Quiet.bind (fun _ => rfl) fun _ =>
    Quiet.bind (quiet_createSubscription _ _ _) fun _ _ => rfl) fun p => ?_
  cases makeCallback env.engine callback p.1 with
  | none => exact quiet_stop _
  | some c => exact quiet_sendRequest env _ _ _

theorem quiet_unsubscribe (callback : Uri cs) (id : UInt64) (hub topic : String) :
    Quiet (unsubscribe env callback id hub topic) := by
  refine Quiet.bind (quiet_statement _) fun _ => ?_
  cases makeCallback env.engine callback id with
  | none => exact quiet_stop _
  | some c => exact quiet_sendRequest env _ _ _

/-- The request is built if the callback can be made and the hub is a URI. -/
theorem returns_request {callback : Uri cs} {id : UInt64} {hub : String} {form : Uri cs → Form cs}
    {w : World (Task cs)} :
    Returns (match makeCallback env.engine callback id with
      | none => Prog.stop .panicked
      | some c => sendRequest env id hub (form c) : Db (Task cs) (Task cs)) w ↔
      callback.hasPath = true ∧ env.isUri hub = true := by
  cases hc : makeCallback env.engine callback id with
  | none =>
    have : ¬ callback.hasPath = true := fun h => by
      obtain ⟨u, hu, -⟩ := makeCallback_spec env.engine h id
      rw [hc] at hu
      cases hu
    simp [Returns, this]
  | some c =>
    by_cases hu : env.isUri hub = true <;>
      simp [Returns, sendRequest, hu, hasPath_of_makeCallback hc]

theorem returns_createSubscription {hub topic : String} {w : World (Task cs)} :
    Returns (createSubscription env hub topic) w ↔ (∃ id ∈ w.rng, w.store.free id = true) ∧
      ∀ n ≤ w.rng.findIdx w.store.free + 2, w.faults (w.stmts + n) = none := by
  unfold createSubscription
  rw [returns_bind]
  simp only [genSecret, Prod.mk.injEq, Except.ok.injEq, ↓existsAndEq, true_and]
  rw [returns_bind]
  simp only [Returns, Prog.pure_apply, Prod.mk.injEq, Except.ok.injEq, ↓existsAndEq, and_true,
    exists_eq']
  exact Websub.returns_createSubscription

/-- `hub::subscribe` returns if a free id is drawn, no statement fails and the request can be
built. -/
theorem returns_subscribe {callback : Uri cs} {hub topic : String} {w : World (Task cs)} :
    Returns (subscribe env callback hub topic) w ↔ (∃ id ∈ w.rng, w.store.free id = true) ∧
      (∀ n ≤ w.rng.findIdx w.store.free + 2, w.faults (w.stmts + n) = none) ∧
      callback.hasPath = true ∧ env.isUri hub = true := by
  unfold subscribe
  rw [returns_bind, ← and_assoc, ← returns_createSubscription env]
  constructor
  · rintro ⟨p, v, hp, hr⟩
    exact ⟨⟨p, v, hp⟩, (returns_request env).1 hr⟩
  · rintro ⟨⟨p, v, hp⟩, hr⟩
    exact ⟨p, v, hp, (returns_request env).2 hr⟩

/-- `hub::unsubscribe` returns if its statement does and the request can be built. -/
theorem returns_unsubscribe {callback : Uri cs} {id : UInt64} {hub topic : String}
    {w : World (Task cs)} :
    Returns (unsubscribe env callback id hub topic) w ↔ w.faults w.stmts = none ∧
      callback.hasPath = true ∧ env.isUri hub = true := by
  unfold unsubscribe
  rw [returns_bind, ← returns_statement (f := fun t => t.deleteSubscriptions id)]
  constructor
  · rintro ⟨b, v, hb, hr⟩
    exact ⟨⟨b, v, hb⟩, (returns_request env).1 hr⟩
  · rintro ⟨⟨b, v, hb⟩, hr⟩
    exact ⟨b, v, hb, (returns_request env).2 hr⟩

/-- `unsubscribe` runs one statement. -/
theorem stmts_of_unsubscribe {callback : Uri cs} {id : UInt64} {hub topic : String}
    {w w' : World (Task cs)} {task : Task cs}
    (h : unsubscribe env callback id hub topic w = (.ok task, w')) :
    w'.faults = w.faults ∧ w'.stmts = w.stmts + 1 := by
  obtain ⟨_, v, hv, h⟩ := Prog.ok_of_bind h
  obtain ⟨-, rfl⟩ := ok_of_statement hv
  cases hc : makeCallback env.engine callback id with
  | none =>
    simp only [hc] at h
    cases (Prod.mk.inj h).1
  | some c =>
    simp only [hc] at h
    obtain ⟨-, rfl, -⟩ := ok_of_sendRequest h
    exact ⟨rfl, rfl⟩

end Hub

namespace Service

/-- The loop of `verify_intent` returns, and the statements after it do not fail. -/
theorem returns_unsubscribeEach {hub topic : String} {m : ℕ} :
    ∀ {l : List UInt64} {w : World (Task cs)},
      (∃ v, service.unsubscribeEach env l hub topic w = (.ok (), v) ∧
        ∀ n ≤ m, v.faults (v.stmts + n) = none) ↔
        (∀ n ≤ l.length + m, w.faults (w.stmts + n) = none) ∧
          (l ≠ [] → service.callback.hasPath = true ∧ env.isUri hub = true)
  | [], w => by simp [unsubscribeEach, Prog.each]
  | id :: l, w => by
    rw [List.length_cons, Nat.add_right_comm, none_upto_succ]
    constructor
    · rintro ⟨v, hv, hf⟩
      obtain ⟨x, hx, hv⟩ := Prog.ok_of_each_cons hv
      obtain ⟨task, u, hu, hx⟩ := Prog.ok_of_bind hx
      obtain ⟨-, rfl⟩ := Prod.mk.inj hx
      obtain ⟨hfaults, hstmts⟩ := Hub.stmts_of_unsubscribe env hu
      obtain ⟨h0, hrequest⟩ := (Hub.returns_unsubscribe env).1 ⟨task, u, hu⟩
      obtain ⟨h, -⟩ := returns_unsubscribeEach.1 ⟨v, hv, hf⟩
      rw [← hfaults, ← hstmts]
      exact ⟨⟨hfaults ▸ h0, h⟩, fun _ => hrequest⟩
    · rintro ⟨⟨h0, h⟩, hrequest⟩
      replace hrequest := hrequest (List.cons_ne_nil id l)
      have hreturns : Returns (service.unsubscribe env id hub topic) w :=
        (Hub.returns_unsubscribe env).2 ⟨h0, hrequest⟩
      obtain ⟨task, u, hu⟩ := hreturns
      obtain ⟨hfaults, hstmts⟩ := Hub.stmts_of_unsubscribe env hu
      rw [← hfaults, ← hstmts] at h
      obtain ⟨v, hv, hf⟩ := returns_unsubscribeEach.2
        (⟨h, fun _ => hrequest⟩ : (∀ n ≤ l.length + m,
          (spawn task u).2.faults ((spawn task u).2.stmts + n) = none) ∧ _)
      exact ⟨v, (Prog.bind_of_ok (Prog.bind_of_ok hu _) _).trans hv, hf⟩

/-- The transaction of `verify_intent` runs to its end : no statement of it fails, and if
there are old subscriptions the requests to unsubscribe from them can be built. -/
def Activates (t : Subscriptions) (faults : ℕ → Option ℕ) (id : UInt64) (hub topic : String) :
    Prop :=
  (∀ n ≤ (t.getOldSubscriptions id hub topic).length + 3, faults n = none) ∧
    (t.getOldSubscriptions id hub topic ≠ [] →
      service.callback.hasPath = true ∧ env.isUri hub = true)

instance (t : Subscriptions) (faults : ℕ → Option ℕ) (id : UInt64) (hub topic : String) :
    Decidable (service.Activates env t faults id hub topic) :=
  inferInstanceAs (Decidable (_ ∧ (_ → _)))

/-- The transaction of `verify_intent` returns exactly if it runs to its end. -/
theorem returns_activate {id : UInt64} {hub topic : String} {expiresAt : Int64}
    {w : World (Task cs)} :
    Returns (service.activate env id hub topic expiresAt) w ↔
      service.Activates env w.store (fun n => w.faults (w.stmts + n)) id hub topic := by
  let old := w.store.getOldSubscriptions id hub topic
  have hupto : (∀ n ≤ old.length + 3, w.faults (w.stmts + n) = none) ↔
      w.faults w.stmts = none ∧ w.faults (w.stmts + 1) = none ∧
        ∀ n ≤ old.length + 1, w.faults (w.stmts + 1 + 1 + n) = none :=
    none_upto_succ.trans (and_congr_right fun _ => none_upto_succ)
  have hloop : (∃ v, service.unsubscribeEach env old hub topic w.opened.queried = (.ok (), v) ∧
      ∀ n ≤ 1, v.faults (v.stmts + n) = none) ↔
        (∀ n ≤ old.length + 1, w.faults (w.stmts + 1 + 1 + n) = none) ∧
          (old ≠ [] → service.callback.hasPath = true ∧ env.isUri hub = true) :=
    returns_unsubscribeEach env service
  -- after the loop the update and the commit are left
  have hrest (v : World (Task cs)) : (∀ n ≤ 1, v.faults (v.stmts + n) = none) ↔
      v.faults v.stmts = none ∧ v.faults (v.stmts + 1) = none :=
    none_upto_succ.trans (and_congr_right fun _ => by simp)
  unfold activate Activates
  rw [returns_transaction, hupto, and_assoc, and_assoc, ← hloop]
  refine and_congr_right fun _ => ?_
  constructor
  · rintro ⟨⟨⟩, v, hv, hcommit⟩
    obtain ⟨h1, hv⟩ := ok_statement_bind_iff.1 hv
    obtain ⟨⟨⟩, u, hu, hv⟩ := Prog.ok_of_bind hv
    obtain ⟨h2, hv⟩ := ok_statement_bind_iff.1 hv
    obtain ⟨-, rfl⟩ := Prod.mk.inj hv
    exact ⟨h1, u, hu, (hrest u).2 ⟨h2, hcommit⟩⟩
  · rintro ⟨h1, u, hu, hf⟩
    obtain ⟨h2, hcommit⟩ := (hrest u).1 hf
    let v : World (Task cs) := { u with
      stmts := u.stmts + 1
      store := (u.store.activateSubscription id expiresAt).2 }.observe
    have hv : (activateSubscription id expiresAt >>= fun _ => (pure () : Db (Task cs) Unit)) u =
        (.ok (), v) := ok_statement_bind_iff.2 ⟨h2, rfl⟩
    exact ⟨(), v, ok_statement_bind_iff.2 ⟨h1, (Prog.bind_of_ok hu _).trans hv⟩, hcommit⟩

/-- `renew_subscriptions` spawns if the first subscription that expires is subscribed to
anew. -/
theorem spawns_renew_cons {threshold : Int64} {w : World (Task cs)}
    {p : UInt64 × String × String} {l : List (UInt64 × String × String)}
    (hl : w.store.getSubscriptionsExpireBefore threshold = p :: l) :
    Spawns (service.renew env threshold) w ↔ w.faults w.stmts = none ∧
      w.faults (w.stmts + 1) = none ∧
      Returns (Hub.subscribe env service.callback p.2.1 p.2.2) w.opened.queried := by
  have hloop (v : World (Task cs)) :
      Spawns (service.renewEach env (p :: l) >>= fun _ =>
        deactivateSubscriptionsExpireBefore threshold) v ↔ _ :=
    (spawns_bind_quiet fun _ => quiet_statement _).trans <|
      spawns_each_cons (fun _ => Hub.quiet_subscribe env _ _ _)
        (fun _ => Hub.keeps_subscribe env _ _ _)
  have hl : w.opened.store.getSubscriptionsExpireBefore threshold = p :: l := hl
  rw [renew, spawns_transaction, getSubscriptionsExpireBefore, spawns_query_bind, hl,
    if_neg (by simp), hloop]
  rfl

/-- A renewal spawns if something expires and the first request is built. -/
theorem spawns_renew {threshold : Int64} {w : World (Task cs)} :
    Spawns (service.renew env threshold) w ↔ ∃ p l,
      w.store.getSubscriptionsExpireBefore threshold = p :: l ∧
      (∃ id ∈ w.rng, w.store.free id = true) ∧
      (∀ n ≤ w.rng.findIdx w.store.free + 4, w.faults (w.stmts + n) = none) ∧
      service.callback.hasPath = true ∧ env.isUri p.2.1 = true := by
  have hupto : (∀ n ≤ w.rng.findIdx w.store.free + 4, w.faults (w.stmts + n) = none) ↔
      w.faults w.stmts = none ∧ w.faults (w.stmts + 1) = none ∧
        ∀ n ≤ w.rng.findIdx w.store.free + 2, w.faults (w.stmts + 1 + 1 + n) = none :=
    none_upto_succ.trans (and_congr_right fun _ => none_upto_succ)
  cases hl : w.store.getSubscriptionsExpireBefore threshold with
  | nil =>
    have hl' : w.opened.store.getSubscriptionsExpireBefore threshold = [] := hl
    unfold renew
    rw [spawns_transaction, getSubscriptionsExpireBefore, spawns_query_bind, hl']
    simp [Spawns]
  | cons p l =>
    rw [spawns_renew_cons env service hl, Hub.returns_subscribe, hupto]
    constructor
    · rintro ⟨h0, h1, hfree, h2, hpath, huri⟩
      exact ⟨p, l, rfl, hfree, ⟨h0, h1, h2⟩, hpath, huri⟩
    · rintro ⟨p', l', heq, hfree, ⟨h0, h1, h2⟩, hpath, huri⟩
      obtain ⟨rfl, rfl⟩ := List.cons.inj heq
      exact ⟨h0, h1, hfree, h2, hpath, huri⟩

theorem spawns_renewSubscriptions (t : Subscriptions) (faults : ℕ → Option ℕ) (rng : List UInt64)
    (fills : ℕ → Vector UInt8 24) (nextTick now : UInt64) :
    Spawns (service.renewSubscriptions env now) (World.start t faults rng fills nextTick) ↔
      RenewSpawns env service t faults rng now := by
  unfold renewSubscriptions RenewSpawns
  cases renewalThreshold env service.renewalMargin now with
  | none => simp [Spawns]
  | some threshold => simp [spawns_renew, World.start]

/-- The transaction of `verify_intent` spawns if the first old subscription is ended. -/
theorem spawns_activate_cons {id : UInt64} {hub topic : String} {expiresAt : Int64}
    {w : World (Task cs)} {old : UInt64} {l : List UInt64}
    (hl : w.store.getOldSubscriptions id hub topic = old :: l) :
    Spawns (service.activate env id hub topic expiresAt) w ↔ w.faults w.stmts = none ∧
      w.faults (w.stmts + 1) = none ∧
      Returns (Hub.unsubscribe env service.callback old hub topic) w.opened.queried := by
  have hloop (v : World (Task cs)) :
      Spawns (service.unsubscribeEach env (old :: l) hub topic >>= fun _ =>
        activateSubscription id expiresAt >>= fun _ => pure ()) v ↔ _ :=
    (spawns_bind_quiet fun _ => Quiet.bind (quiet_statement _) fun _ _ => rfl).trans <|
      spawns_each_cons (fun _ => Hub.quiet_unsubscribe env _ _ _ _)
        (fun _ => Hub.keeps_unsubscribe env _ _ _ _)
  have hl : w.opened.store.getOldSubscriptions id hub topic = old :: l := hl
  unfold activate
  rw [spawns_transaction, getOldSubscriptions, spawns_query_bind, hl, hloop]
  rfl

/-- An activation spawns if there is an old subscription and the first request is built. -/
theorem spawns_activate {id : UInt64} {hub topic : String} {expiresAt : Int64}
    {w : World (Task cs)} :
    Spawns (service.activate env id hub topic expiresAt) w ↔ ∃ old l,
      w.store.getOldSubscriptions id hub topic = old :: l ∧
      (∀ n ≤ 2, w.faults (w.stmts + n) = none) ∧
      service.callback.hasPath = true ∧ env.isUri hub = true := by
  have hupto : (∀ n ≤ 2, w.faults (w.stmts + n) = none) ↔ w.faults w.stmts = none ∧
      w.faults (w.stmts + 1) = none ∧ w.faults (w.stmts + 1 + 1) = none :=
    none_upto_succ.trans <| and_congr_right fun _ =>
      none_upto_succ.trans <| and_congr_right fun _ => by simp
  cases hl : w.store.getOldSubscriptions id hub topic with
  | nil =>
    have hquiet (_ : Unit) : Quiet (activateSubscription id expiresAt >>= fun _ =>
        (pure () : Db (Task cs) Unit)) := Quiet.bind (quiet_statement _) fun _ _ => rfl
    have hl' : w.opened.store.getOldSubscriptions id hub topic = [] := hl
    rw [activate, spawns_transaction, getOldSubscriptions, spawns_query_bind, hl',
      spawns_bind_quiet hquiet]
    simp [Spawns, unsubscribeEach, Prog.each]
  | cons old l =>
    rw [spawns_activate_cons env service hl, Hub.returns_unsubscribe, hupto]
    constructor
    · rintro ⟨h0, h1, h2, hpath, huri⟩
      exact ⟨old, l, rfl, ⟨h0, h1, h2⟩, hpath, huri⟩
    · rintro ⟨_, _, -, ⟨h0, h1, h2⟩, hpath, huri⟩
      exact ⟨h0, h1, h2, hpath, huri⟩

/-- A verification spawns if its refresh time can be computed and its activation spawns. -/
theorem spawns_verifySubscription {now id : UInt64} {hub topic challenge : String}
    {leaseSeconds : UInt64} {w : World (Task cs)} :
    Spawns (service.verifySubscription env now id hub topic challenge leaseSeconds) w ↔
      ∃ tick old l, service.refreshTime env (expiryOf now leaseSeconds).toUInt64 = some tick ∧
        w.store.getOldSubscriptions id hub topic = old :: l ∧
        (∀ n ≤ 2, w.faults (w.stmts + n) = none) ∧
        service.callback.hasPath = true ∧ env.isUri hub = true := by
  unfold verifySubscription
  cases service.refreshTime env (expiryOf now leaseSeconds).toUInt64 with
  | none => simp [Spawns]
  | some tick =>
    have hlower : Quiet (hasten tick : Db (Task cs) Unit) := fun _ => rfl
    have hanswer (_ : Unit) : Quiet (pure (.challenge challenge) : Db (Task cs) Answer) :=
      fun _ => rfl
    rw [spawns_bind hlower]
    simp only [hasten, Prog.modify_apply, Prod.mk.injEq, ↓existsAndEq, true_and,
      spawns_bind_quiet hanswer, spawns_activate, Option.some.injEq]
    exact exists_const Unit

theorem spawns_verifyIntent (t : Subscriptions) (faults : ℕ → Option ℕ) (rng : List UInt64)
    (fills : ℕ → Vector UInt8 24) (nextTick now id : UInt64) (q : Option Verify) :
    Spawns (service.verifyIntent env now id q) (World.start t faults rng fills nextTick) ↔
      VerifySpawns env service t faults now id q := by
  match q with
  | none => simp [verifyIntent, Spawns, VerifySpawns]
  | some (.unsubscribe topic challenge) =>
    have : Quiet (service.verifyIntent env now id (some (.unsubscribe topic challenge))) :=
      Quiet.bind (quiet_statement _) fun _ _ => rfl
    simp [Spawns, this _, VerifySpawns]
  | some (.subscribe topic challenge leaseSeconds) =>
    have hupto : (∀ n ≤ 3, faults n = none) ↔ faults 0 = none ∧ ∀ n ≤ 2, faults (1 + n) = none := by
      have h : (∀ n ≤ 2 + 1, faults (0 + n) = none) ↔ _ := none_upto_succ
      simpa using h
    simp only [verifyIntent, getHubOfInactiveSubscription, VerifySpawns, spawns_query_bind]
    cases hf : t.getHubOfInactiveSubscription id topic with
    | none => simp [World.start, hf, Spawns]
    | some hub =>
      have hverify (w : World (Task cs)) :
          Spawns (service.verifySubscription env now id hub topic challenge leaseSeconds) w ↔ _ :=
        spawns_verifySubscription env service
      simp only [World.start, hf, hverify, World.queried, World.observe, hupto]
      constructor
      · rintro ⟨h0, tick, old, l, ht, hl, h1, hc⟩
        exact ⟨hub, tick, old, l, rfl, ht, hl, ⟨h0, h1⟩, hc⟩
      · rintro ⟨_, tick, old, l, hhub, ht, hl, ⟨h0, h1⟩, hc⟩
        obtain rfl := Option.some_inj.1 hhub
        exact ⟨h0, tick, old, l, ht, hl, h1, hc⟩

end Service

/-! ## The moment of the first request -/

section Moments

variable {m : Moment τ}

theorem mem_moments_bind {x : Db τ α} {f : α → Db τ β} (hf : ∀ a, Keeps (f a)) {w : World τ}
    (h : m ∈ (x w).2.moments) : m ∈ ((x >>= f) w).2.moments := by
  rw [Prog.bind_apply]
  cases hx : x w with
  | mk r v =>
    rw [hx] at h
    cases r with
    | ok a => exact (hf a v).mem_moments h
    | error e => exact h

theorem mem_moments_of_ok {x : Db τ α} {f : α → Db τ β} {w v : World τ} {a : α}
    (hx : x w = (.ok a, v)) (h : m ∈ (f a v).2.moments) : m ∈ ((x >>= f) w).2.moments := by
  rw [Prog.bind_of_ok hx]
  exact h

theorem mem_moments_transaction {x : Db τ α} {w : World τ} (h0 : w.faults w.stmts = none)
    (h : m ∈ (x w.opened).2.moments) : m ∈ (transaction x w).2.moments := by
  obtain ⟨t, ht⟩ := exists_closed x h0
  rw [ht]
  exact List.mem_cons_of_mem _ h

/-- The moment after the first round of a loop that spawns. -/
theorem mem_moments_each_cons {x : β → Db τ τ} (hk : ∀ b, Keeps (x b)) {b : β} {bs : List β}
    {w v : World τ} {task : τ} (h : x b w = (.ok task, v)) :
    ⟨v.committed, v.spawned ++ [task]⟩ ∈
      (Prog.each (b :: bs) (fun b => x b >>= fun task => spawn task) w).2.moments :=
  mem_moments_bind (fun _ => Keeps.each (fun b => (hk b).bind keeps_spawn) bs)
    (mem_moments_of_ok h List.mem_cons_self)

/-- Opening the outermost transaction commits nothing. -/
theorem committed_opened {w : World τ} (h : w.saved = []) :
    w.opened.queried.committed = w.store := by
  simp [World.committed, World.queried, World.opened, World.observe, h]

end Moments

namespace Service

/-- The first request of `renew_subscriptions` is for a row that is not committed. -/
theorem exists_untold_renew {threshold : Int64} {w : World (Task cs)} (hw : w.saved = [])
    (h : Spawns (service.renew env threshold) w) :
    ∃ m ∈ (service.renew env threshold w).2.moments, ∃ task ∈ m.spawned,
      ¬ Told m.committed task := by
  obtain ⟨p, l, hl, -⟩ := (spawns_renew env service).1 h
  obtain ⟨h0, h1, task, v, hv⟩ := (spawns_renew_cons env service hl).1 h
  have hmem : (⟨v.committed, v.spawned ++ [task]⟩ : Moment (Task cs)) ∈
      (service.renew env threshold w).2.moments := by
    have hl' : w.opened.store.getSubscriptionsExpireBefore threshold = p :: l := hl
    refine mem_moments_transaction h0 (mem_moments_of_ok (query_of_none _ h1) ?_)
    rw [hl', if_neg (by simp)]
    exact mem_moments_bind (fun _ => keeps_statement _)
      (mem_moments_each_cons (fun _ => Hub.keeps_subscribe env _ _ _) hv)
  refine ⟨_, hmem, task, by simp, ?_⟩
  have hcomm : v.committed = w.store := by
    have hk := Hub.keeps_subscribe env service.callback p.2.1 p.2.2 w.opened.queried
    rw [hv] at hk
    rw [hk.committed_eq (by simp [World.queried, World.opened, World.observe]), committed_opened hw]
  obtain ⟨id, secret, c, -, rfl, hcreated⟩ := Hub.created_of_subscribe hv
  have hnot : id.toInt64 ∉ w.store.keys := Table.not_mem_keys_of_rows hcreated.rows
  simpa [Told, hcomm] using hnot

/-- The first request of `verify_intent` is for a row whose deletion is not committed. -/
theorem exists_untold_activate {id : UInt64} {hub topic : String} {expiresAt : Int64}
    {w : World (Task cs)} (hw : w.saved = [])
    (h : Spawns (service.activate env id hub topic expiresAt) w) :
    ∃ m ∈ (service.activate env id hub topic expiresAt w).2.moments, ∃ task ∈ m.spawned,
      ¬ Told m.committed task := by
  obtain ⟨old, l, hl, -⟩ := (spawns_activate env service).1 h
  obtain ⟨h0, h1, task, v, hv⟩ := (spawns_activate_cons env service hl).1 h
  have hmem : (⟨v.committed, v.spawned ++ [task]⟩ : Moment (Task cs)) ∈
      (service.activate env id hub topic expiresAt w).2.moments := by
    have hl' : w.opened.store.getOldSubscriptions id hub topic = old :: l := hl
    refine mem_moments_transaction h0 (mem_moments_of_ok (query_of_none _ h1) ?_)
    rw [hl']
    exact mem_moments_bind
      (fun _ => Keeps.bind (keeps_statement _) fun _ => Keeps.pure _)
      (mem_moments_each_cons (fun _ => Hub.keeps_unsubscribe env _ _ _ _) hv)
  refine ⟨_, hmem, task, by simp, ?_⟩
  have hcomm : v.committed = w.store := by
    have hk := Hub.keeps_unsubscribe env service.callback old hub topic w.opened.queried
    rw [hv] at hk
    rw [hk.committed_eq (by simp [World.queried, World.opened, World.observe]), committed_opened hw]
  obtain ⟨c, -, rfl, -⟩ := Hub.ok_of_unsubscribe hv
  have hold : old ∈ w.store.getOldSubscriptions id hub topic := by rw [hl]; exact List.mem_cons_self
  obtain ⟨r, hr, rfl⟩ := List.mem_map.1 hold
  have hkey : r.id ∈ w.store.keys := Table.key_mem_keys (Table.mem_select.1 hr).1
  simpa [Told, hcomm] using hkey

theorem exists_untold_renewSubscriptions {now : UInt64} {w : World (Task cs)} (hw : w.saved = [])
    (h : Spawns (service.renewSubscriptions env now) w) :
    ∃ m ∈ (service.renewSubscriptions env now w).2.moments, ∃ task ∈ m.spawned,
      ¬ Told m.committed task := by
  rw [renewSubscriptions] at h ⊢
  cases ht : renewalThreshold env service.renewalMargin now with
  | none => simp [ht, Spawns] at h
  | some threshold =>
    rw [ht] at h
    exact exists_untold_renew env service hw h

theorem exists_untold_verifySubscription {now id : UInt64} {hub topic challenge : String}
    {leaseSeconds : UInt64} {w : World (Task cs)} (hw : w.saved = [])
    (h : Spawns (service.verifySubscription env now id hub topic challenge leaseSeconds) w) :
    ∃ m ∈ (service.verifySubscription env now id hub topic challenge leaseSeconds w).2.moments,
      ∃ task ∈ m.spawned, ¬ Told m.committed task := by
  rw [verifySubscription] at h ⊢
  cases ht : service.refreshTime env (expiryOf now leaseSeconds).toUInt64 with
  | none => simp [ht, Spawns] at h
  | some tick =>
    have hlower : Quiet (hasten tick : Db (Task cs) Unit) := fun _ => rfl
    have hanswer (_ : Unit) : Quiet (pure (.challenge challenge) : Db (Task cs) Answer) :=
      fun _ => rfl
    rw [ht, spawns_bind hlower] at h
    obtain ⟨_, v, hv, h⟩ := h
    obtain ⟨-, rfl⟩ := Prod.mk.inj hv
    have h := (spawns_bind_quiet hanswer).1 h
    obtain ⟨m, hm, htold⟩ := exists_untold_activate env service (by exact hw) h
    exact ⟨m, mem_moments_of_ok hv (mem_moments_bind (fun _ => Keeps.pure _) hm), htold⟩

theorem exists_untold_verifyIntent {now id : UInt64} :
    ∀ {q : Option Verify} {w : World (Task cs)}, w.saved = [] →
      Spawns (service.verifyIntent env now id q) w →
        ∃ m ∈ (service.verifyIntent env now id q w).2.moments, ∃ task ∈ m.spawned,
          ¬ Told m.committed task
  | none, w, _, h => absurd rfl h
  | some (.unsubscribe _ _), w, _, h => by
    unfold verifyIntent subscriptionExists at h
    rw [spawns_query_bind] at h
    exact absurd rfl h.2
  | some (.subscribe topic challenge leaseSeconds), w, hw, h => by
    unfold verifyIntent getHubOfInactiveSubscription at h
    rw [spawns_query_bind] at h
    obtain ⟨h0, h⟩ := h
    cases hf : w.store.getHubOfInactiveSubscription id topic with
    | none =>
      rw [hf] at h
      exact absurd rfl h
    | some hub =>
      rw [hf] at h
      have hq : w.queried.saved = [] := hw
      obtain ⟨m, hm, htold⟩ := exists_untold_verifySubscription env service hq h
      refine ⟨m, mem_moments_of_ok (query_of_none _ h0) ?_, htold⟩
      rw [hf]
      exact hm

end Service

end Spawning

/-! ## The main result -/

section Main

variable {t : Subscriptions} {faults : ℕ → Option ℕ} {rng : List UInt64}
  {fills : ℕ → Vector UInt8 24} {nextTick : UInt64}

/-- A call that spawns nothing tells nothing, if its errors leave the store as it was. -/
theorem toldCommitted_of_quiet {x : Db (Task cs) α} (hk : Keeps x)
    (hs : ¬ Spawns x (World.start t faults rng fills nextTick))
    (herr : ∀ e w', x (World.start t faults rng fills nextTick) = (.error e, w') → w'.store = t) :
    ToldCommitted t (x (World.start t faults rng fills nextTick)) := by
  have hext := hk (World.start t faults rng fills nextTick)
  have hsp : (x (World.start t faults rng fills nextTick)).2.spawned = [] := not_not.1 hs
  obtain ⟨ms, hms, hm⟩ := hext.moments
  refine ⟨fun m hmem task htask => ?_, fun e he => ⟨?_, hsp⟩⟩
  · rw [hms, World.start, List.append_nil] at hmem
    have hpre := (hm m hmem).2.2
    rw [hsp, List.prefix_nil] at hpre
    rw [hpre] at htask
    cases htask
  · have hsaved : (x (World.start t faults rng fills nextTick)).2.saved = [] := hext.saved
    unfold World.committed
    rw [hsaved]
    exact herr _ _ (Prod.ext he rfl)

theorem toldCommitted_renewSubscriptions_iff (env : Env) (service : Service cs) (now : UInt64) :
    ToldCommitted t (service.renewSubscriptions env now
      (World.start t faults rng fills nextTick)) ↔ ¬ RenewSpawns env service t faults rng now := by
  rw [← Service.spawns_renewSubscriptions env service t faults rng fills nextTick]
  constructor
  · rintro ⟨htold, -⟩ hs
    obtain ⟨m, hm, task, htask, hnot⟩ :=
      Service.exists_untold_renewSubscriptions env service rfl hs
    exact hnot (htold m hm task htask)
  · intro hs
    exact toldCommitted_of_quiet (Service.keeps_renewSubscriptions env service now) hs
      fun _ _ h => Service.store_of_renewSubscriptions_error h

theorem toldCommitted_verifyIntent_iff (env : Env) (service : Service cs) (now id : UInt64)
    (q : Option Verify) :
    ToldCommitted t (service.verifyIntent env now id q
      (World.start t faults rng fills nextTick)) ↔
        ¬ VerifySpawns env service t faults now id q := by
  rw [← Service.spawns_verifyIntent env service t faults rng fills nextTick]
  constructor
  · rintro ⟨htold, -⟩ hs
    obtain ⟨m, hm, task, htask, hnot⟩ := Service.exists_untold_verifyIntent env service rfl hs
    exact hnot (htold m hm task htask)
  · intro hs
    exact toldCommitted_of_quiet (Service.keeps_verifyIntent env service now id q) hs
      fun _ _ h => Service.store_of_verifyIntent_error h

end Main

/-- The hub is told what is committed exactly by the calls that do not get to their first
request. -/
theorem toldCommitted_iff (env : Env) (service : Service cs) (t : Subscriptions)
    (faults : ℕ → Option ℕ) (rng : List UInt64) (fills : ℕ → Vector UInt8 24)
    (nextTick now : UInt64) :
    (ToldCommitted t (service.renewSubscriptions env now
      (World.start t faults rng fills nextTick)) ↔ ¬ RenewSpawns env service t faults rng now) ∧
    ∀ id q, ToldCommitted t (service.verifyIntent env now id q
      (World.start t faults rng fills nextTick)) ↔
        ¬ VerifySpawns env service t faults now id q :=
  ⟨toldCommitted_renewSubscriptions_iff env service now,
    fun id q => toldCommitted_verifyIntent_iff env service now id q⟩

/-- A renewal whose last statement fails has sent a request for a row that is never
committed. -/
theorem not_toldCommitted_example :
    ¬ ToldCommitted ⟨[exampleRow], by decide⟩ (exampleService.renewSubscriptions exampleEnv 90
      (World.start ⟨[exampleRow], by decide⟩ (fun n => if n = 5 then some 1 else none) [7]
        (fun _ => Vector.replicate 24 0) 90)) := by
  rw [toldCommitted_renewSubscriptions_iff, not_not]
  refine ⟨101, (1, "http://example.com/hub", "topic"), [], by decide, by decide, by decide, ?_,
    by decide, by decide⟩
  intro n hn
  have hfirst : [7].findIdx (Subscriptions.free ⟨[exampleRow], by decide⟩) = 0 := by decide
  rw [hfirst] at hn
  exact if_neg (by omega)

end Websub
