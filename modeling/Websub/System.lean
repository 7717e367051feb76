import Websub.Scheduler
import Websub.Commit

/-!
# The running system

The store, the scheduler with its renewals, the calls of `verify_intent` and the requests to
hubs, as one machine whose actions interleave in any order. Each transaction and each
statement outside of one is an action, as is each step of the scheduler, so a call of
`verify_intent` is three : it reads the inactive subscription, hastens the next tick, and
runs its transaction, after which it answers. A transaction runs the program of `Service`
from the committed store, with any failing statements and any random values.

A request is outstanding until the hub has answered it. A hub that has accepted a request
to subscribe is verifying the subscription until a call of `verify_intent` for it has
ended. A restart loses the calls and the requests and starts from `build_service`.

`System.outcome_of_step` says once what a step can do. What it does to the store
(`Stored`), the calls (`Called`), the next tick (`Ticked`) and a result that is yet to be
stored (`Returned`) follows.
-/

namespace Websub

open Machines Tables Programs Http

variable {cs : Charset}

/-! ## The machine -/

/-- Where a call of `verify_intent` is. -/
inductive CallStage
  /-- The inactive subscription is read. -/
  | read
  /-- The next tick is hastened. -/
  | hastened (expiresAt : Int64)
  /-- The challenge is answered, after a transaction that left the store `left`. -/
  | answered (left : Subscriptions)
  /-- The call has ended without the challenge. -/
  | failed
deriving DecidableEq

/-- A call of `verify_intent` that has found its subscription. -/
structure Call where
  id : UInt64
  hub : String
  topic : String
  leaseSeconds : UInt64
  stage : CallStage
deriving DecidableEq

/-- The call has yet to run its transaction. -/
def Call.inFlight (c : Call) : Bool :=
  match c.stage with
  | .read | .hastened _ => true
  | _ => false

/-- The statements that fail and the random values of one call on a connection. -/
structure Draws where
  faults : ℕ → Option ℕ
  rng : List UInt64
  fills : ℕ → Vector UInt8 24

/-- The topic of a form. -/
def Form.topic : Form cs → String
  | .subscribe _ topic _ => topic
  | .unsubscribe _ topic => topic

/-- The system. -/
structure System (cs : Charset) where
  /-- What is committed. -/
  store : Subscriptions
  scheduler : Scheduler
  /-- The callback that runs has renewed, and not yet read the next expiry. -/
  renewed : Bool
  calls : List Call
  /-- The requests that hubs have not answered. -/
  requests : List (Task cs)
  /-- The requests to subscribe that hubs have accepted and not verified. -/
  verifying : List (Task cs)
deriving DecidableEq

/-- A step of the system. -/
inductive SystemAction (cs : Charset)
  /-- A step of the scheduler's task between its callbacks, or of a wake-up. -/
  | scheduler (a : SchedulerAction)
  /-- `Tick::tick` renews. -/
  | tickRenew (now : UInt64) (d : Draws)
  /-- `Tick::tick` reads the next expiry. -/
  | tickRead (d : Draws)
  /-- `Service::renew_subscriptions` is called. -/
  | renew (now : UInt64) (d : Draws)
  /-- `hub::subscribe` is called. -/
  | subscribe (callback : Uri cs) (hub topic : String) (d : Draws)
  /-- `hub::unsubscribe` is called. -/
  | unsubscribe (callback : Uri cs) (id : UInt64) (hub topic : String) (d : Draws)
  /-- A call of `verify_intent` reads the inactive subscription. -/
  | verifyRead (id : UInt64) (topic : String) (leaseSeconds : UInt64) (d : Draws)
  /-- The `i`-th call hastens the next tick. -/
  | verifyHasten (i : ℕ) (now : UInt64)
  /-- The `i`-th call runs its transaction and answers. -/
  | verifyCommit (i : ℕ) (d : Draws)
  /-- The hub answers the `i`-th request, with success or not. -/
  | respond (i : ℕ) (success : Bool)
  | restart

/-- The steps of the scheduler that neither enter nor leave the callback's code. -/
def SchedulerAction.own : SchedulerAction → Bool
  | .wake _ | .fire _ | .poll | .register | .load | .check _ | .store | .reset => true
  | .hasten _ | .drop | .return _ | .fail => false

namespace System

variable (env : Env) (service : Service cs) (s : System cs)

/-- A connection of its own. -/
def world (d : Draws) : World (Task cs) :=
  .start s.store d.faults d.rng d.fills s.scheduler.nextTick

/-- The verification of `id` has ended. -/
def verified (id : UInt64) (topic : String) : List (Task cs) :=
  s.verifying.filter fun task => !(task.id = id && task.form.topic = topic)

/-- One step. -/
def step : SystemAction cs → Option (System cs)
  | .scheduler a =>
    if a.own then (s.scheduler.step a).map fun scheduler => { s with scheduler } else none
  | .tickRenew now d =>
    if s.scheduler.phase = .ticking ∧ s.renewed = false then
      match service.renewSubscriptions env now (s.world d) with
      | (.ok (), w) =>
        some { s with store := w.committed, requests := s.requests ++ w.spawned, renewed := true }
      | (.error _, w) => (s.scheduler.step .fail).map fun scheduler =>
        { s with store := w.committed, requests := s.requests ++ w.spawned, scheduler }
    else none
  | .tickRead d =>
    if s.scheduler.phase = .ticking ∧ s.renewed = true then
      match (getNextExpiry : Db (Task cs) (Option Int64)) (s.world d) with
      | (.ok expiry, _) =>
        match service.tickAt env expiry with
        | some next =>
          (s.scheduler.step (.return next)).map fun scheduler =>
            { s with scheduler, renewed := false }
        | none =>
          (s.scheduler.step .fail).map fun scheduler => { s with scheduler, renewed := false }
      | (.error _, _) =>
        (s.scheduler.step .fail).map fun scheduler => { s with scheduler, renewed := false }
    else none
  | .renew now d =>
    let w := (service.renewSubscriptions env now (s.world d)).2
    some { s with store := w.committed, requests := s.requests ++ w.spawned }
  | .subscribe callback hub topic d =>
    match Hub.subscribe env callback hub topic (s.world d) with
    | (.ok task, w) => some { s with store := w.committed, requests := s.requests ++ [task] }
    | (.error _, w) => some { s with store := w.committed }
  | .unsubscribe callback id hub topic d =>
    match Hub.unsubscribe env callback id hub topic (s.world d) with
    | (.ok task, w) => some { s with store := w.committed, requests := s.requests ++ [task] }
    | (.error _, w) => some { s with store := w.committed }
  | .verifyRead id topic leaseSeconds d =>
    match (getHubOfInactiveSubscription id topic : Db (Task cs) (Option String)) (s.world d) with
    | (.ok (some hub), _) =>
      some { s with calls := s.calls ++ [⟨id, hub, topic, leaseSeconds, .read⟩] }
    | _ => some { s with verifying := s.verified id topic }
  | .verifyHasten i now =>
    match s.calls[i]? with
    | some c =>
      if c.stage = .read then
        match service.refreshTime env (expiryOf now c.leaseSeconds).toUInt64 with
        | some tick =>
          some { s with
            scheduler := s.scheduler.hasten tick
            calls := s.calls.set i { c with stage := .hastened (expiryOf now c.leaseSeconds) } }
        | none =>
          some { s with
            verifying := s.verified c.id c.topic
            calls := s.calls.set i { c with stage := .failed } }
      else none
    | none => none
  | .verifyCommit i d =>
    match s.calls[i]? with
    | some c =>
      match c.stage with
      | .hastened expiresAt =>
        match service.activate env c.id c.hub c.topic expiresAt (s.world d) with
        | (.ok (), w) =>
          some { s with
            store := w.committed
            requests := s.requests ++ w.spawned
            verifying := s.verified c.id c.topic
            calls := s.calls.set i { c with stage := .answered w.committed } }
        | (.error _, w) =>
          some { s with
            store := w.committed
            requests := s.requests ++ w.spawned
            verifying := s.verified c.id c.topic
            calls := s.calls.set i { c with stage := .failed } }
      | _ => none
    | none => none
  | .respond i success =>
    match s.requests[i]? with
    | some task =>
      some { s with
        requests := s.requests.eraseIdx i
        verifying := if success && task.form.isSubscribe then s.verifying ++ [task]
          else s.verifying }
    | none => none
  | .restart =>
    some { s with
      scheduler := .new (firstTick service.renewalMargin s.store)
      renewed := false
      calls := []
      requests := []
      verifying := s.verifying.filter fun task =>
        !s.calls.any fun c => c.inFlight && (task.id = c.id && task.form.topic = c.topic) }

end System

/-- The runs of the system from `build_service` on. -/
def system (env : Env) (service : Service cs) : Machine (System cs) (SystemAction cs) where
  init s := ∃ store, s =
    ⟨store, .new (firstTick service.renewalMargin store), false, [], [], []⟩
  step := System.step env service

/-! ## What a step does -/

/-- What a renewal leaves : the store as it was, or renewed. -/
def RenewalLeaves (env : Env) (service : Service cs) (rng : List UInt64) (t t' : Subscriptions)
    (tasks : List (Task cs)) : Prop :=
  t' = t ∨ ∃ threshold, Renewed env service threshold rng t t' tasks

/-- What `hub::subscribe` leaves : the store as it was, or with a new row. -/
def SubscriptionLeaves (hub topic : String) (rng : List UInt64) (t t' : Subscriptions) : Prop :=
  t' = t ∨ ∃ id ∈ rng, ∃ secret, t'.rows = t.rows ++ [⟨id.toInt64, hub, topic, secret, none⟩]

/-- What each step does, said once : the state after it, by how it ends. -/
inductive Outcome (env : Env) (service : Service cs) (s : System cs) :
    SystemAction cs → System cs → Prop
  | scheduler {a : SchedulerAction} {scheduler : Scheduler} (own : a.own = true)
      (step : s.scheduler.step a = some scheduler) :
      Outcome env service s (.scheduler a) { s with scheduler }
  | tickRenew {now : UInt64} {d : Draws} {store : Subscriptions} {tasks : List (Task cs)}
      (ticking : s.scheduler.phase = .ticking)
      (left : RenewalLeaves env service d.rng s.store store tasks) (renewed : s.renewed = false) :
      Outcome env service s (.tickRenew now d)
        { s with store, requests := s.requests ++ tasks, renewed := true }
  | tickRenewFail {now : UInt64} {d : Draws} {store : Subscriptions} {tasks : List (Task cs)}
      (ticking : s.scheduler.phase = .ticking)
      (left : RenewalLeaves env service d.rng s.store store tasks) (renewed : s.renewed = false) :
      Outcome env service s (.tickRenew now d)
        { s with
          store, requests := s.requests ++ tasks
          scheduler := { s.scheduler with phase := .finished } }
  | tickRead {d : Draws} {next : Option UInt64} (ticking : s.scheduler.phase = .ticking)
      (tick : service.tickAt env s.store.getNextExpiry = some next) :
      Outcome env service s (.tickRead d)
        { s with scheduler := { s.scheduler with phase := .returned next }, renewed := false }
  | tickReadFail {d : Draws} (ticking : s.scheduler.phase = .ticking) :
      Outcome env service s (.tickRead d)
        { s with scheduler := { s.scheduler with phase := .finished }, renewed := false }
  | renew {now : UInt64} {d : Draws} {store : Subscriptions} {tasks : List (Task cs)}
      (left : RenewalLeaves env service d.rng s.store store tasks) :
      Outcome env service s (.renew now d) { s with store, requests := s.requests ++ tasks }
  | subscribe {callback : Uri cs} {hub topic : String} {d : Draws} {store : Subscriptions}
      {tasks : List (Task cs)} (left : SubscriptionLeaves hub topic d.rng s.store store) :
      Outcome env service s (.subscribe callback hub topic d)
        { s with store, requests := s.requests ++ tasks }
  | unsubscribe {callback : Uri cs} {id : UInt64} {hub topic : String} {d : Draws}
      {store : Subscriptions} {tasks : List (Task cs)}
      (left : store = s.store ∨ store = (s.store.deleteSubscriptions id).2) :
      Outcome env service s (.unsubscribe callback id hub topic d)
        { s with store, requests := s.requests ++ tasks }
  | verifyRead {id : UInt64} {hub topic : String} {leaseSeconds : UInt64} {d : Draws}
      (found : s.store.getHubOfInactiveSubscription id topic = some hub) :
      Outcome env service s (.verifyRead id topic leaseSeconds d)
        { s with calls := s.calls ++ [⟨id, hub, topic, leaseSeconds, .read⟩] }
  | verifyReadFail {id : UInt64} {topic : String} {leaseSeconds : UInt64} {d : Draws} :
      Outcome env service s (.verifyRead id topic leaseSeconds d)
        { s with verifying := s.verified id topic }
  | verifyHasten {i : ℕ} {now : UInt64} {c : Call} {tick : UInt64} (call : s.calls[i]? = some c)
      (stage : c.stage = .read)
      (refresh : service.refreshTime env (expiryOf now c.leaseSeconds).toUInt64 = some tick) :
      Outcome env service s (.verifyHasten i now)
        { s with
          scheduler := s.scheduler.hasten tick
          calls := s.calls.set i { c with stage := .hastened (expiryOf now c.leaseSeconds) } }
  | verifyHastenFail {i : ℕ} {now : UInt64} {c : Call} (call : s.calls[i]? = some c) :
      Outcome env service s (.verifyHasten i now)
        { s with
          verifying := s.verified c.id c.topic
          calls := s.calls.set i { c with stage := .failed } }
  | verifyCommit {i : ℕ} {d : Draws} {c : Call} {expiresAt : Int64} {store : Subscriptions}
      {tasks : List (Task cs)} (call : s.calls[i]? = some c) (stage : c.stage = .hastened expiresAt)
      (left : Activated env service c.id c.hub c.topic expiresAt s.store store tasks)
      (ends : service.Activates env s.store d.faults c.id c.hub c.topic) :
      Outcome env service s (.verifyCommit i d)
        { s with
          store, requests := s.requests ++ tasks
          verifying := s.verified c.id c.topic
          calls := s.calls.set i { c with stage := .answered store } }
  | verifyCommitFail {i : ℕ} {d : Draws} {c : Call} {tasks : List (Task cs)}
      (call : s.calls[i]? = some c) :
      Outcome env service s (.verifyCommit i d)
        { s with
          requests := s.requests ++ tasks
          verifying := s.verified c.id c.topic
          calls := s.calls.set i { c with stage := .failed } }
  | respond {i : ℕ} {success : Bool} {task : Task cs} (request : s.requests[i]? = some task) :
      Outcome env service s (.respond i success)
        { s with
          requests := s.requests.eraseIdx i
          verifying := if success && task.form.isSubscribe then s.verifying ++ [task]
            else s.verifying }
  | restart : Outcome env service s .restart
        { s with
          scheduler := .new (firstTick service.renewalMargin s.store)
          renewed := false
          calls := []
          requests := []
          verifying := s.verifying.filter fun task =>
            !s.calls.any fun c => c.inFlight && (task.id = c.id && task.form.topic = c.topic) }

namespace System

variable {env : Env} {service : Service cs} {s t : System cs}

/-- A call outside of a transaction has committed its store when it ends. -/
theorem committed_of_keeps {α : Type} {x : Db (Task cs) α} (hk : Keeps x) (d : Draws) :
    (x (s.world d)).2.committed = (x (s.world d)).2.store := by
  have hsaved : (x (s.world d)).2.saved = [] := (hk (s.world d)).saved
  unfold World.committed
  rw [hsaved]
  rfl

/-- A renewal on a connection of its own, by what it commits. -/
theorem renewalLeaves {now : UInt64} {d : Draws} {r : Except Stop Unit} {w : World (Task cs)}
    (h : service.renewSubscriptions env now (s.world d) = (r, w)) :
    RenewalLeaves env service d.rng s.store w.committed w.spawned := by
  have hcomm := committed_of_keeps (s := s) (Service.keeps_renewSubscriptions env service now) d
  rw [h] at hcomm
  change w.committed = w.store at hcomm
  rw [hcomm]
  cases r with
  | error e => exact .inl (Service.store_of_renewSubscriptions_error h)
  | ok a =>
    unfold Service.renewSubscriptions at h
    cases ht : renewalThreshold env service.renewalMargin now with
    | none =>
      rw [ht] at h
      cases (Prod.mk.inj h).1
    | some threshold =>
      rw [ht] at h
      obtain ⟨tasks, hsp, -, hrenewed⟩ := Service.renewed_of_ok h
      obtain rfl : w.spawned = tasks := hsp
      exact .inr ⟨threshold, hrenewed⟩

/-- A call of `hub::subscribe` on a connection of its own, by what it commits. -/
theorem subscriptionLeaves {callback : Uri cs} {hub topic : String} {d : Draws}
    {r : Except Stop (Task cs)} {w : World (Task cs)}
    (h : Hub.subscribe env callback hub topic (s.world d) = (r, w)) :
    SubscriptionLeaves hub topic d.rng s.store w.committed := by
  have hcomm := committed_of_keeps (s := s) (Hub.keeps_subscribe env callback hub topic) d
  have hleft := Hub.store_of_subscribe env callback hub topic (s.world d)
  rw [h] at hcomm hleft
  change w.committed = w.store at hcomm
  rw [hcomm]
  rcases hleft with hs | ⟨id, secret, hs⟩
  · exact .inl hs
  · exact .inr ⟨id, hs.drawn, secret, hs.rows⟩

/-- A call of `hub::unsubscribe` on a connection of its own, by what it commits. -/
theorem deletionLeaves {callback : Uri cs} {id : UInt64} {hub topic : String} {d : Draws}
    {r : Except Stop (Task cs)} {w : World (Task cs)}
    (h : Hub.unsubscribe env callback id hub topic (s.world d) = (r, w)) :
    w.committed = s.store ∨ w.committed = (s.store.deleteSubscriptions id).2 := by
  have hcomm := committed_of_keeps (s := s) (Hub.keeps_unsubscribe env callback id hub topic) d
  have hleft := Hub.store_of_unsubscribe env callback id hub topic (s.world d)
  rw [h] at hcomm hleft
  change w.committed = w.store at hcomm
  rw [hcomm]
  exact hleft

/-- A transaction of `verify_intent` that returns, by what it commits. -/
theorem activationLeaves {id : UInt64} {hub topic : String} {expiresAt : Int64} {d : Draws}
    {w : World (Task cs)}
    (h : service.activate env id hub topic expiresAt (s.world d) = (.ok (), w)) :
    Activated env service id hub topic expiresAt s.store w.committed w.spawned := by
  have hcomm := committed_of_keeps (s := s)
    (Service.keeps_activate env service id hub topic expiresAt) d
  rw [h] at hcomm
  change w.committed = w.store at hcomm
  rw [hcomm]
  obtain ⟨tasks, hsp, -, hactivated⟩ := Service.activated_of_ok h
  obtain rfl : w.spawned = tasks := hsp
  exact hactivated

/-- A transaction that returns has run to its end. -/
theorem activates_of_ok {id : UInt64} {hub topic : String} {expiresAt : Int64} {d : Draws}
    {w : World (Task cs)}
    (h : service.activate env id hub topic expiresAt (s.world d) = (.ok (), w)) :
    service.Activates env s.store d.faults id hub topic := by
  have hends := (Service.returns_activate env service).1 ⟨(), w, h⟩
  simpa only [world, World.start, Nat.zero_add] using hends

/-- A transaction of `verify_intent` that does not return has committed nothing. -/
theorem activationLeaves_of_error {id : UInt64} {hub topic : String} {expiresAt : Int64} {d : Draws}
    {e : Stop} {w : World (Task cs)}
    (h : service.activate env id hub topic expiresAt (s.world d) = (.error e, w)) :
    w.committed = s.store := by
  have hcomm := committed_of_keeps (s := s)
    (Service.keeps_activate env service id hub topic expiresAt) d
  rw [h] at hcomm
  exact hcomm.trans (Service.store_of_activate_error h)

/-- Every step of the system ends in one of these ways. -/
theorem outcome_of_step {a : SystemAction cs} (h : s.step env service a = some t) :
    Outcome env service s a t := by
  cases a with
  | scheduler a =>
    simp only [step] at h
    split at h
    · rename_i ha
      obtain ⟨scheduler, hs, rfl⟩ := Option.map_eq_some_iff.1 h
      exact .scheduler ha hs
    · cases h
  | tickRenew now d =>
    simp only [step] at h
    split at h
    · rename_i hp
      split at h
      · rename_i w hr
        obtain rfl := Option.some_inj.1 h
        exact .tickRenew hp.1 (renewalLeaves hr) hp.2
      · rename_i e w hr
        obtain ⟨scheduler, hs, rfl⟩ := Option.map_eq_some_iff.1 h
        cases Scheduler.outcome_of_step hs with
        | fail ticking => exact .tickRenewFail ticking (renewalLeaves hr) hp.2
    · cases h
  | tickRead d =>
    simp only [step] at h
    split at h
    · split at h
      · rename_i expiry w hr
        obtain ⟨rfl, -⟩ := ok_of_statement hr
        split at h
        · rename_i next hnext
          obtain ⟨scheduler, hs, rfl⟩ := Option.map_eq_some_iff.1 h
          cases Scheduler.outcome_of_step hs with
          | «return» ticking => exact .tickRead ticking hnext
        · obtain ⟨scheduler, hs, rfl⟩ := Option.map_eq_some_iff.1 h
          cases Scheduler.outcome_of_step hs with
          | fail ticking => exact .tickReadFail ticking
      · obtain ⟨scheduler, hs, rfl⟩ := Option.map_eq_some_iff.1 h
        cases Scheduler.outcome_of_step hs with
        | fail ticking => exact .tickReadFail ticking
    · cases h
  | renew now d =>
    obtain rfl := Option.some_inj.1 h
    exact .renew (renewalLeaves rfl)
  | subscribe callback hub topic d =>
    simp only [step] at h
    split at h <;> rename_i hr
    · obtain rfl := Option.some_inj.1 h
      exact .subscribe (subscriptionLeaves hr)
    · obtain rfl := Option.some_inj.1 h
      have hout : Outcome env service s (.subscribe callback hub topic d)
          { s with store := _, requests := s.requests ++ [] } := .subscribe (subscriptionLeaves hr)
      simpa using hout
  | unsubscribe callback id hub topic d =>
    simp only [step] at h
    split at h <;> rename_i hr
    · obtain rfl := Option.some_inj.1 h
      exact .unsubscribe (deletionLeaves hr)
    · obtain rfl := Option.some_inj.1 h
      have hout : Outcome env service s (.unsubscribe callback id hub topic d)
          { s with store := _, requests := s.requests ++ [] } := .unsubscribe (deletionLeaves hr)
      simpa using hout
  | verifyRead id topic leaseSeconds d =>
    simp only [step] at h
    split at h
    · rename_i hub w hr
      obtain rfl := Option.some_inj.1 h
      exact .verifyRead (ok_of_statement hr).1.symm
    · obtain rfl := Option.some_inj.1 h
      exact .verifyReadFail
  | verifyHasten i now =>
    simp only [step] at h
    split at h
    · rename_i c hc
      split at h
      · rename_i hstage
        split at h
        · rename_i tick htick
          obtain rfl := Option.some_inj.1 h
          exact .verifyHasten hc hstage htick
        · obtain rfl := Option.some_inj.1 h
          exact .verifyHastenFail hc
      · cases h
    · cases h
  | verifyCommit i d =>
    simp only [step] at h
    split at h
    · rename_i c hc
      split at h
      · rename_i expiresAt hstage
        split at h
        · rename_i w hr
          obtain rfl := Option.some_inj.1 h
          exact .verifyCommit hc hstage (activationLeaves hr) (activates_of_ok hr)
        · rename_i e w hr
          obtain rfl := Option.some_inj.1 h
          rw [activationLeaves_of_error hr]
          exact .verifyCommitFail hc
      · cases h
    · cases h
  | respond i success =>
    simp only [step] at h
    split at h
    · rename_i task htask
      obtain rfl := Option.some_inj.1 h
      exact .respond htask
    · cases h
  | restart =>
    obtain rfl := Option.some_inj.1 h
    exact .restart

end System

/-! ## What a step does to each part -/

/-- What a step does to the store. -/
inductive Stored (env : Env) (service : Service cs) (s t : System cs) : SystemAction cs → Prop
  | same {a : SystemAction cs} (store : t.store = s.store) : Stored env service s t a
  | created {callback : Uri cs} {hub topic secret : String} {id : UInt64} {d : Draws}
      (rows : t.store.rows = s.store.rows ++ [⟨id.toInt64, hub, topic, secret, none⟩])
      (drawn : id ∈ d.rng) : Stored env service s t (.subscribe callback hub topic d)
  | deleted {callback : Uri cs} {id : UInt64} {hub topic : String} {d : Draws}
      (store : t.store = (s.store.deleteSubscriptions id).2) :
      Stored env service s t (.unsubscribe callback id hub topic d)
  | renewed {a : SystemAction cs} {now : UInt64} {d : Draws} {threshold : Int64}
      {tasks : List (Task cs)} (action : a = .renew now d ∨ a = .tickRenew now d)
      (store : Renewed env service threshold d.rng s.store t.store tasks)
      (requests : t.requests = s.requests ++ tasks) : Stored env service s t a
  | activated {i : ℕ} {d : Draws} {c : Call} {expiresAt : Int64} {tasks : List (Task cs)}
      (call : s.calls[i]? = some c) (stage : c.stage = .hastened expiresAt)
      (store : Activated env service c.id c.hub c.topic expiresAt s.store t.store tasks)
      (answer : t.calls = s.calls.set i { c with stage := .answered t.store })
      (ends : service.Activates env s.store d.faults c.id c.hub c.topic) :
      Stored env service s t (.verifyCommit i d)

/-- Every step does one of these to the store. -/
theorem Outcome.stored {env : Env} {service : Service cs} {s t : System cs} {a : SystemAction cs}
    (h : Outcome env service s a t) : Stored env service s t a := by
  cases h with
  | tickRenew _ left | tickRenewFail _ left =>
    rcases left with rfl | ⟨threshold, hrenewed⟩
    · exact .same rfl
    · exact .renewed (.inr rfl) hrenewed rfl
  | renew left =>
    rcases left with rfl | ⟨threshold, hrenewed⟩
    · exact .same rfl
    · exact .renewed (.inl rfl) hrenewed rfl
  | subscribe left =>
    rcases left with rfl | ⟨id, hid, secret, hrows⟩
    · exact .same rfl
    · exact .created hrows hid
  | unsubscribe left =>
    rcases left with rfl | rfl
    · exact .same rfl
    · exact .deleted rfl
  | verifyCommit call stage left ends => exact .activated call stage left rfl ends
  | _ => exact .same rfl

/-- The random values that a step may take for ids. -/
def SystemAction.drawn : SystemAction cs → List UInt64
  | .subscribe _ _ _ d | .renew _ d | .tickRenew _ d => d.rng
  | _ => []

/-- What a row is created with. -/
def Row.Same (r r' : Row) : Prop :=
  r.id = r'.id ∧ r.hub = r'.hub ∧ r.topic = r'.topic ∧ r.secret = r'.secret

/-- A row after a step is one from before it, or a new inactive one of an id that was drawn
and free. -/
theorem Stored.origin {env : Env} {service : Service cs} {s t : System cs} {a : SystemAction cs}
    (h : Stored env service s t a) {r' : Row} (hr : r' ∈ t.store) :
    (∃ r ∈ s.store, r.Same r') ∨ r'.id.toUInt64 ∈ a.drawn ∧
      s.store.free r'.id.toUInt64 = true ∧ r'.expiresAt = none := by
  cases h with
  | same store => exact .inl ⟨r', store ▸ hr, rfl, rfl, rfl, rfl⟩
  | created rows drawn =>
    rcases (Table.mem_iff_of_rows rows).1 hr with hr | rfl
    · exact .inl ⟨r', hr, rfl, rfl, rfl, rfl⟩
    · refine .inr ⟨by simpa [SystemAction.drawn] using drawn, decide_eq_true ?_, rfl⟩
      simpa using Table.not_mem_keys_of_rows rows
  | deleted store =>
    rw [store] at hr
    exact .inl ⟨r', (Table.mem_delete.1 hr).1, rfl, rfl, rfl, rfl⟩
  | renewed action store =>
    rcases store.mem hr with ⟨r, hmem, rfl⟩ | ⟨hdrawn, hfree, hnone⟩
    · exact .inl ⟨r, hmem, by simp [Row.Same]⟩
    · refine .inr ⟨?_, decide_eq_true (by rwa [Int64.toInt64_toUInt64]), hnone⟩
      rcases action with rfl | rfl <;> exact hdrawn
  | activated call stage store =>
    obtain ⟨r, hmem, -, rfl⟩ := store.mem_iff.1 hr
    exact .inl ⟨r, hmem, by simp [Row.Same]⟩

/-- What a step does to the calls : where a call after it comes from. -/
inductive Called (env : Env) (service : Service cs) (s t : System cs) :
    SystemAction cs → Call → Prop
  | kept {a : SystemAction cs} {c : Call} (call : c ∈ s.calls) : Called env service s t a c
  | read {id : UInt64} {hub topic : String} {leaseSeconds : UInt64} {d : Draws}
      (found : s.store.getHubOfInactiveSubscription id topic = some hub)
      (store : t.store = s.store) :
      Called env service s t (.verifyRead id topic leaseSeconds d)
        ⟨id, hub, topic, leaseSeconds, .read⟩
  | hastened {i : ℕ} {now : UInt64} {c : Call} {tick : UInt64} (call : s.calls[i]? = some c)
      (stage : c.stage = .read)
      (refresh : service.refreshTime env (expiryOf now c.leaseSeconds).toUInt64 = some tick)
      (scheduler : t.scheduler = s.scheduler.hasten tick) :
      Called env service s t (.verifyHasten i now)
        { c with stage := .hastened (expiryOf now c.leaseSeconds) }
  | answered {i : ℕ} {d : Draws} {c : Call} {expiresAt : Int64} {tasks : List (Task cs)}
      (call : s.calls[i]? = some c) (stage : c.stage = .hastened expiresAt)
      (store : Activated env service c.id c.hub c.topic expiresAt s.store t.store tasks)
      (ends : service.Activates env s.store d.faults c.id c.hub c.topic) :
      Called env service s t (.verifyCommit i d) { c with stage := .answered t.store }
  | failed {a : SystemAction cs} {c : Call} (call : c ∈ s.calls) :
      Called env service s t a { c with stage := .failed }

/-- Every call after a step comes from one of these. -/
theorem Outcome.called {env : Env} {service : Service cs} {s t : System cs} {a : SystemAction cs}
    (h : Outcome env service s a t) {c : Call} (hc : c ∈ t.calls) : Called env service s t a c := by
  cases h with
  | verifyRead found =>
    rcases List.mem_append.1 hc with hc | hc
    · exact .kept hc
    · obtain rfl := List.mem_singleton.1 hc
      exact .read found rfl
  | verifyHasten call stage refresh =>
    rcases List.mem_or_eq_of_mem_set hc with hc | rfl
    · exact .kept hc
    · exact .hastened call stage refresh rfl
  | verifyHastenFail call | verifyCommitFail call =>
    rcases List.mem_or_eq_of_mem_set hc with hc | rfl
    · exact .kept hc
    · exact .failed (List.mem_of_getElem? call)
  | verifyCommit call stage left ends =>
    rcases List.mem_or_eq_of_mem_set hc with hc | rfl
    · exact .kept hc
    · exact .answered call stage left ends
  | restart => cases hc
  | _ => exact .kept hc

/-- What a step does to the next tick. -/
inductive Ticked (service : Service cs) (s t : System cs) : SystemAction cs → Prop
  | same {a : SystemAction cs} (nextTick : t.scheduler.nextTick = s.scheduler.nextTick) :
      Ticked service s t a
  | lowered {i : ℕ} {now tick : UInt64}
      (nextTick : t.scheduler.nextTick = fetchMin s.scheduler.nextTick tick) :
      Ticked service s t (.verifyHasten i now)
  | stored {next : Option UInt64} (phase : s.scheduler.phase = .returned next)
      (nextTick : t.scheduler.nextTick = next.getD noTick) (store : t.store = s.store) :
      Ticked service s t (.scheduler .store)
  | restarted (nextTick : t.scheduler.nextTick =
        (firstTick service.renewalMargin s.store).getD noTick)
      (store : t.store = s.store) (calls : t.calls = []) : Ticked service s t .restart

/-- What a step does to the result of a callback that has returned and is not yet stored. -/
inductive Returned (env : Env) (service : Service cs) (s t : System cs) (next : Option UInt64) :
    SystemAction cs → Prop
  | kept {a : SystemAction cs} (phase : s.scheduler.phase = .returned next)
      (action : ∀ d, a ≠ .tickRead d) : Returned env service s t next a
  | read {d : Draws} (tick : service.tickAt env s.store.getNextExpiry = some next)
      (store : t.store = s.store) : Returned env service s t next (.tickRead d)

/-- The scheduler's own steps store the result of the callback and do nothing else to the
time. -/
theorem Scheduler.Outcome.nextTick_of_own {s t : Scheduler} {a : SchedulerAction}
    (h : s.Outcome a t) (ha : a.own = true) : t.nextTick = s.nextTick ∨
      a = .store ∧ ∃ next, s.phase = .returned next ∧ t.nextTick = next.getD noTick := by
  cases h with
  | hasten => cases ha
  | store returned => exact .inr ⟨rfl, _, returned, rfl⟩
  | _ => exact .inl rfl

/-- The scheduler's own steps leave no new result of a callback. -/
theorem Scheduler.Outcome.returned_of_own {s t : Scheduler} {a : SchedulerAction}
    {next : Option UInt64} (h : s.Outcome a t) (ha : a.own = true)
    (ht : t.phase = .returned next) : s.phase = .returned next := by
  cases h with
  | «return» => cases ha
  | hasten | wake | fire | drop => exact ht
  | _ => cases ht

/-- Every step does one of these to the next tick. -/
theorem Outcome.ticked {env : Env} {service : Service cs} {s t : System cs} {a : SystemAction cs}
    (h : Outcome env service s a t) : Ticked service s t a := by
  cases h with
  | scheduler own step =>
    have hout := Scheduler.outcome_of_step step
    rcases hout.nextTick_of_own own with hn | ⟨rfl, next, hp, hn⟩
    · exact .same hn
    · exact .stored hp hn rfl
  | verifyHasten => exact .lowered rfl
  | restart => exact .restarted rfl rfl rfl
  | _ => exact .same rfl

/-- Every result that is yet to be stored comes from one of these. -/
theorem Outcome.returned {env : Env} {service : Service cs} {s t : System cs} {a : SystemAction cs}
    (h : Outcome env service s a t) {next : Option UInt64}
    (ht : t.scheduler.phase = .returned next) : Returned env service s t next a := by
  cases h with
  | scheduler own step =>
    exact .kept ((Scheduler.outcome_of_step step).returned_of_own own ht) (by simp)
  | tickRead ticking tick =>
    obtain rfl := Phase.returned.inj ht
    exact .read tick rfl
  | tickRenewFail => cases ht
  | tickReadFail => cases ht
  | restart => cases ht
  | _ => exact .kept ht (by simp)

end Websub
