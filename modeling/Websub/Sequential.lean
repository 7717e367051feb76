import Websub.Storm
import Websub.Activation

/-!
# Calls that nothing comes between

`System` takes the programs of `verify_intent` and `Tick::tick` apart into steps, each on a
connection of its own, and anything may happen between two of them. Where nothing does, they are
the program : every call of `verify_intent` (`verify_sequential`) and of `Tick::tick`
(`tick_sequential`), with any statements failing, is a list of steps that leaves the same store,
requests and next tick, and ends in the same way.

A connection counts its statements from its start, so the steps of the second half of a call see
the faults of the whole shifted. `Uniform` programs do the same in the middle of a call as on a
new connection.
-/

namespace Websub

open Machines Tables Programs Http

variable {cs : Charset}

/-! ## Programs in the middle of a call -/

section Uniform

variable {τ α β : Type}

/-- What a new connection has to be for `v` to go on as `w` does, which has spawned `before`. -/
structure Resumes (before : List τ) (w v : World τ) : Prop where
  store : w.store = v.store
  saved : w.saved = v.saved
  faults : ∀ n, w.faults (w.stmts + n) = v.faults (v.stmts + n)
  spawned : w.spawned = before ++ v.spawned

namespace Resumes

variable {before : List τ} {w v : World τ}

/-- Both have committed the same. -/
theorem committed (h : Resumes before w v) : w.committed = v.committed := by
  unfold World.committed
  rw [h.saved, h.store]

/-- Both would roll back to the same store. -/
theorem rollback (h : Resumes before w v) : w.rollback = v.rollback := by
  unfold World.rollback
  rw [h.saved, h.store]

/-- The next statement fails on both or on neither. -/
theorem fault (h : Resumes before w v) : w.faults w.stmts = v.faults v.stmts :=
  h.faults 0

/-- After it the others are as before. -/
theorem next (h : Resumes before w v) (n : ℕ) :
    w.faults (w.stmts + 1 + n) = v.faults (v.stmts + 1 + n) := by
  rw [Nat.add_assoc, Nat.add_assoc]
  exact h.faults (1 + n)

/-- Both open a transaction. -/
theorem opened (h : Resumes before w v) : Resumes before w.opened v.opened :=
  ⟨h.store, congrArg₂ List.cons h.store h.saved, h.next, h.spawned⟩

/-- Both close their transactions with one store. -/
theorem closed (h : Resumes before w v) {t u : Subscriptions} (ht : t = u) :
    Resumes before (w.closed t) (v.closed u) :=
  ⟨ht, congrArg List.tail h.saved, h.next, h.spawned⟩

end Resumes

/-- The program does the same on both. -/
def Uniform (x : Db τ α) : Prop :=
  ∀ before, Prog.Simulates (Resumes before) Eq x x

/-- A uniform call ends the same on a connection that resumes. -/
theorem Uniform.run {x : Db τ α} (hx : Uniform x) {before : List τ} {w v : World τ}
    (h : Resumes before w v) : (x w).1 = (x v).1 ∧ Resumes before (x w).2 (x v).2 := by
  have hend := hx before w v h
  cases hw : x w with
  | mk r w' =>
    cases hv : x v with
    | mk r' v' =>
      rw [hw, hv] at hend
      cases hend with
      | ok h' => exact ⟨rfl, h'⟩
      | error he h' => exact ⟨congrArg Except.error he, h'⟩

theorem Uniform.pure (a : α) : Uniform (pure a : Db τ α) := fun _ => Prog.Simulates.pure a

theorem Uniform.stop (e : Stop) : Uniform (Prog.stop e : Db τ α) := fun _ _ _ h => .error rfl h

theorem Uniform.bind {x : Db τ α} {f : α → Db τ β} (hx : Uniform x) (hf : ∀ a, Uniform (f a)) :
    Uniform (x >>= f) := fun before =>
  Prog.Simulates.bind (hx before) fun a => hf a before

theorem Uniform.each {f : β → Db τ Unit} (hf : ∀ b, Uniform (f b)) :
    ∀ l : List β, Uniform (Prog.each l f)
  | [] => Uniform.pure _
  | b :: l => (hf b).bind fun _ => Uniform.each hf l

/-- A statement fails on both connections or on neither. -/
theorem uniform_statement (f : Subscriptions → α × Subscriptions) :
    Uniform (statement f : Db τ α) := by
  intro before w v h
  unfold statement
  rw [h.fault]
  cases v.faults v.stmts with
  | some code => exact .error rfl ⟨h.store, h.saved, h.next, h.spawned⟩
  | none =>
    rw [h.store]
    exact .ok ⟨rfl, h.saved, h.next, h.spawned⟩

theorem uniform_query (f : Subscriptions → α) : Uniform (query f : Db τ α) :=
  uniform_statement _

/-- What is spawned before does not matter. -/
theorem uniform_spawn (task : τ) : Uniform (spawn task) := by
  intro before w v h
  refine .ok ⟨h.store, h.saved, h.faults, ?_⟩
  exact (congrArg (· ++ [task]) h.spawned).trans (List.append_assoc _ _ _)

/-- Both transactions open, or neither. They end in the same way, and both or neither are rolled
back. -/
theorem Uniform.transaction {x : Db τ α} (hx : Uniform x) : Uniform (transaction x) := by
  intro before w v h
  have hend := hx before w.opened v.opened h.opened
  unfold Websub.transaction
  rw [h.fault]
  cases v.faults v.stmts with
  | some code => exact .error rfl ⟨h.store, h.saved, h.next, h.spawned⟩
  | none =>
    simp only
    cases hw : x w.opened with
    | mk r w' =>
      cases hv : x v.opened with
      | mk r' v' =>
        rw [hw, hv] at hend
        cases hend with
        | error he hresumes =>
          subst he
          exact .error rfl (hresumes.closed hresumes.rollback)
        | ok hresumes =>
          simp only [hresumes.fault]
          cases v'.faults v'.stmts with
          | some code => exact .error rfl (hresumes.closed hresumes.rollback)
          | none => exact .ok (hresumes.closed hresumes.store)

end Uniform

/-- The transaction of `verify_intent` does the same in the middle of the call as on a new
connection. -/
theorem uniform_activate (env : Env) (service : Service cs) (id : UInt64) (hub topic : String)
    (expiresAt : Int64) : Uniform (service.activate env id hub topic expiresAt) := by
  have hunsubscribe (old : UInt64) : Uniform (service.unsubscribe env old hub topic) := by
    refine (uniform_statement _).bind fun _ => ?_
    cases makeCallback env.engine service.callback old with
    | none => exact Uniform.stop _
    | some c =>
      simp only [Hub.sendRequest]
      split
      · exact Uniform.pure _
      · exact Uniform.stop _
  refine Uniform.transaction (Uniform.bind (uniform_query _) fun old => ?_)
  refine Uniform.bind (Uniform.each (fun old => ?_) old) fun _ => ?_
  · exact (hunsubscribe old).bind fun task => uniform_spawn task
  · exact Uniform.bind (uniform_statement _) fun _ => Uniform.pure _

/-! ## The calls -/

/-- What is left of the draws of a call. -/
def World.rest {τ : Type} (w : World τ) : Draws :=
  ⟨fun n => w.faults (w.stmts + n), w.rng, w.fills⟩

/-- Outside of a transaction what is stored is committed. -/
theorem committed_of_saved {τ : Type} {w : World τ} (h : w.saved = []) : w.committed = w.store := by
  unfold World.committed
  rw [h]
  rfl

section Calls

variable {env : Env} {service : Service cs} {s : System cs} {w : World (Task cs)}

/-- A step of its own goes on where a call is, outside of a transaction. -/
theorem System.resumes_world (hsaved : w.saved = []) (hstore : s.store = w.store) :
    Resumes w.spawned w (s.world w.rest) where
  store := hstore.symm
  saved := hsaved
  faults n := congrArg (fun n => w.faults (w.stmts + n)) (Nat.zero_add n).symm
  spawned := (List.append_nil _).symm

/-- `Tick::tick` once it has renewed. -/
def Service.readTick (env : Env) (service : Service cs) : Db (Task cs) (Option UInt64) := do
  let expiry ← Websub.getNextExpiry
  match service.tickAt env expiry with
  | none => Prog.stop .panicked
  | some next => pure next

/-- The read of the next expiry can be made on a connection of its own. -/
theorem Service.uniform_readTick (env : Env) (service : Service cs) :
    Uniform (service.readTick env) := by
  refine Uniform.bind (uniform_query _) fun expiry => ?_
  cases service.tickAt env expiry with
  | none => exact Uniform.stop _
  | some next => exact Uniform.pure _

/-- The phase of the scheduler when its callback has ended. -/
def Phase.ofTick : Except Stop (Option UInt64) → Phase
  | .ok next => .returned next
  | .error _ => .finished

/-- The step that reads the next expiry is the end of `Tick::tick`. -/
theorem System.step_tickRead (env : Env) (service : Service cs) {s : System cs}
    (hticking : s.scheduler.phase = .ticking) (hrenewed : s.renewed = true) (d : Draws) :
    s.step env service (.tickRead d) = some { s with
      scheduler := { s.scheduler with phase := .ofTick (service.readTick env (s.world d)).1 }
      renewed := false } := by
  simp only [System.step]
  rw [if_pos ⟨hticking, hrenewed⟩]
  unfold Service.readTick
  cases h : (Websub.getNextExpiry : Db (Task cs) (Option Int64)) (s.world d) with
  | mk r v =>
    cases r with
    | error e =>
      rw [Prog.bind_of_error h]
      simp [Scheduler.step, hticking, Phase.ofTick]
    | ok expiry =>
      rw [Prog.bind_of_ok h]
      cases htick : service.tickAt env expiry <;>
        simp [htick, Scheduler.step, hticking, Phase.ofTick]

/-- The read of the next expiry changes nothing. -/
theorem Service.readTick_spec (env : Env) (service : Service cs) (w : World (Task cs)) :
    (service.readTick env w).2.committed = w.committed ∧
      (service.readTick env w).2.spawned = w.spawned := by
  unfold Service.readTick
  cases hf : w.faults w.stmts with
  | some code =>
    have hread : (Websub.getNextExpiry : Db (Task cs) (Option Int64)) w =
        (.error (.error (.other code)), { w with stmts := w.stmts + 1 }.observe) := by
      unfold Websub.getNextExpiry query statement
      rw [hf]
    rw [Prog.bind_of_error hread]
    exact ⟨rfl, rfl⟩
  | none =>
    have hread : (Websub.getNextExpiry : Db (Task cs) (Option Int64)) w =
        (.ok w.store.getNextExpiry, w.queried) := query_of_none _ hf
    rw [Prog.bind_of_ok hread]
    cases service.tickAt env w.store.getNextExpiry <;> exact ⟨rfl, rfl⟩

/-- The system after a renewal that has returned to its tick. -/
def System.renewedBy (s : System cs) (w : World (Task cs)) : System cs :=
  { s with store := w.committed, requests := s.requests ++ w.spawned, renewed := true }

/-- Every call of `Tick::tick`, with any statements failing and any ids drawn, is a list of steps
with nothing in between. -/
theorem tick_sequential (hticking : s.scheduler.phase = .ticking) (hrenewed : s.renewed = false)
    (now : UInt64) (d : Draws) :
    ∃ as, (as = [] ∨ ∃ d', as = [.tickRead d']) ∧
      (system env service).exec s (.tickRenew now d :: as) = some { s with
        store := (service.tick env now (s.world d)).2.committed
        requests := s.requests ++ (service.tick env now (s.world d)).2.spawned
        scheduler := { s.scheduler with
          phase := .ofTick (service.tick env now (s.world d)).1 } } := by
  have htick : service.tick env now =
      (service.renewSubscriptions env now >>= fun _ => service.readTick env) := rfl
  have hkeeps := Service.keeps_renewSubscriptions env service now (s.world d)
  rw [htick]
  cases h : service.renewSubscriptions env now (s.world d) with
  | mk r w =>
    rw [h] at hkeeps
    cases r with
    | error e =>
      rw [Prog.bind_of_error h]
      refine ⟨[], .inl rfl, Machine.exec_of_step ?_ []⟩
      simp only [system, System.step]
      rw [if_pos ⟨hticking, hrenewed⟩, h]
      simp [Scheduler.step, hticking, Phase.ofTick]
    | ok a =>
      rw [Prog.bind_of_ok h]
      have hsaved : w.saved = [] := hkeeps.saved
      have hcommitted : w.committed = w.store := committed_of_saved hsaved
      have hstep : s.step env service (.tickRenew now d) = some (s.renewedBy w) := by
        simp only [System.step]
        rw [if_pos ⟨hticking, hrenewed⟩, h]
        rfl
      have hread := System.step_tickRead (s := s.renewedBy w) env service hticking rfl w.rest
      obtain ⟨hresult, -⟩ := (Service.uniform_readTick env service).run
        (System.resumes_world (s := s.renewedBy w) hsaved hcommitted)
      obtain ⟨hstore, hspawned⟩ := service.readTick_spec env w
      refine ⟨[.tickRead w.rest], .inr ⟨_, rfl⟩, ?_⟩
      rw [hresult, hstore, hspawned]
      refine (Machine.exec_of_step hstep _).trans ?_
      refine (Machine.exec_of_step hread []).trans ?_
      simp [System.renewedBy, hrenewed]

/-- A tick at 95 that renews the subscription 2 by 3. -/
theorem tick_sequential_example :
    let s : System .http := { exampleSystem (exampleStore "topic" (some 100)) with
      scheduler := { Scheduler.new none with phase := .ticking } }
    ∃ as, (as = [] ∨ ∃ d', as = [.tickRead d']) ∧
      (system exampleEnv exampleService).exec s (.tickRenew 95 (exampleDraws [3]) :: as) =
        some { s with
          store := (exampleService.tick exampleEnv 95 (s.world (exampleDraws [3]))).2.committed
          requests := s.requests ++
            (exampleService.tick exampleEnv 95 (s.world (exampleDraws [3]))).2.spawned
          scheduler := { s.scheduler with
            phase := .ofTick (exampleService.tick exampleEnv 95
              (s.world (exampleDraws [3]))).1 } } :=
  tick_sequential rfl rfl 95 (exampleDraws [3])

/-- A query changes nothing but the count of statements. -/
theorem query_spec {τ α : Type} (f : Subscriptions → α) (w : World τ) :
    (query f w).2.store = w.store ∧ (query f w).2.saved = w.saved ∧
      (query f w).2.spawned = w.spawned ∧ (query f w).2.nextTick = w.nextTick := by
  unfold query statement
  split <;> exact ⟨rfl, rfl, rfl, rfl⟩

/-- The state of the `i`-th call once it has run its transaction. -/
def System.committedBy (s : System cs) (i : ℕ) (c : Call) (p : Except Stop Unit × World (Task cs)) :
    System cs :=
  { s with
    store := p.2.committed
    requests := s.requests ++ p.2.spawned
    verifying := s.verified c.id c.topic
    calls := s.calls.set i { c with stage := match p.1 with
      | .ok () => .answered p.2.committed
      | .error _ => .failed } }

/-- The step that commits is the transaction of the code. -/
theorem System.step_verifyCommit (env : Env) (service : Service cs) {s : System cs} {i : ℕ}
    {c : Call} {expiresAt : Int64} (hc : s.calls[i]? = some c)
    (hstage : c.stage = .hastened expiresAt) (d : Draws) :
    s.step env service (.verifyCommit i d) =
      some (s.committedBy i c (service.activate env c.id c.hub c.topic expiresAt (s.world d))) := by
  simp only [System.step, hc, hstage]
  cases h : service.activate env c.id c.hub c.topic expiresAt (s.world d) with
  | mk r w => cases r <;> rfl

/-- The steps have left what the call leaves, and answered the challenge if it has. -/
structure SameEnd (s t : System cs) (challenge : String)
    (out : Except Stop Answer × World (Task cs)) : Prop where
  store : t.store = out.2.committed
  requests : t.requests = s.requests ++ out.2.spawned
  nextTick : t.scheduler.nextTick = out.2.nextTick
  answer : out.1 = .ok (.challenge challenge) ↔
    ∃ c, t.calls[s.calls.length]? = some c ∧ c.stage = .answered t.store

/-- The transaction is run on a connection of its own, `v`, by the last call of `u`, which has
come from `s`. -/
theorem sameEnd_committedBy {x : Db (Task cs) Unit} (hx : Uniform x) (hkeeps : KeepsTick x)
    {u : System cs} {c : Call} (hcalls : u.calls = s.calls ++ [c])
    (hrequests : u.requests = s.requests) (hnext : u.scheduler.nextTick = w.nextTick)
    (hspawned : w.spawned = []) {v : World (Task cs)} (h : Resumes w.spawned w v)
    (challenge : String) :
    SameEnd s (u.committedBy s.calls.length c (x v)) challenge
      ((x >>= fun _ => pure (.challenge challenge)) w) := by
  obtain ⟨hresult, hresumes⟩ := hx.run h
  have htick := hkeeps w
  have hlast : s.calls.length < u.calls.length := by simp [hcalls]
  cases hw : x w with
  | mk r w' =>
    cases hv : x v with
    | mk r' v' =>
      rw [hw, hv] at hresult hresumes
      rw [hw] at htick
      obtain rfl : r = r' := hresult
      have hstore : v'.committed = w'.committed := hresumes.committed.symm
      have hnew : u.requests ++ v'.spawned = s.requests ++ w'.spawned := by
        have hsp : w'.spawned = w.spawned ++ v'.spawned := hresumes.spawned
        rw [hrequests, hsp, hspawned, List.nil_append]
      cases r with
      | ok a =>
        rw [Prog.bind_of_ok hw]
        refine ⟨hstore, hnew, hnext.trans htick.symm, iff_of_true rfl ?_⟩
        exact ⟨_, List.getElem?_set_self hlast, rfl⟩
      | error e =>
        rw [Prog.bind_of_error hw]
        refine ⟨hstore, hnew, hnext.trans htick.symm, iff_of_false (by simp) ?_⟩
        rintro ⟨c', hc', hstage⟩
        obtain rfl := Option.some_inj.1 ((List.getElem?_set_self hlast).symm.trans hc')
        cases hstage

/-- The system after the last of its calls has hastened the next tick. -/
def System.hastened (s : System cs) (tick : UInt64) (c : Call) : System cs :=
  { s with scheduler := s.scheduler.hasten tick, calls := s.calls ++ [c] }

theorem set_concat_length {α : Type} (l : List α) (a b : α) :
    (l ++ [a]).set l.length b = l ++ [b] := by
  simp

/-- The call where the subscription is found. -/
theorem System.found_sequential (env : Env) (service : Service cs) {w : World (Task cs)}
    (s : System cs) (now id : UInt64) (hub topic challenge : String)
    (leaseSeconds : UInt64) (hstore : w.store = s.store) (hsaved : w.saved = [])
    (hspawned : w.spawned = []) (hnext : w.nextTick = s.scheduler.nextTick) :
    ∃ as t, (system env service).exec
        { s with calls := s.calls ++ [⟨id, hub, topic, leaseSeconds, .read⟩] } as = some t ∧
      (as = [.verifyHasten s.calls.length now] ∨
        ∃ d', as = [.verifyHasten s.calls.length now, .verifyCommit s.calls.length d']) ∧
      SameEnd s t challenge
        (service.verifySubscription env now id hub topic challenge leaseSeconds w) := by
  unfold Service.verifySubscription
  cases htick : service.refreshTime env (expiryOf now leaseSeconds).toUInt64 with
  | none =>
    have hstep : ({ s with calls := s.calls ++ [⟨id, hub, topic, leaseSeconds, .read⟩] }
        : System cs).step env service (.verifyHasten s.calls.length now) = some { s with
          verifying := s.verified id topic
          calls := s.calls ++ [⟨id, hub, topic, leaseSeconds, .failed⟩] } := by
      simp only [System.step, List.getElem?_concat_length, htick, if_true, set_concat_length]
      rfl
    refine ⟨_, _, Machine.exec_of_step hstep [], .inl rfl, ⟨?_, ?_, ?_, ?_⟩⟩
    · exact ((committed_of_saved hsaved).trans hstore).symm
    · exact ((congrArg (s.requests ++ ·) hspawned).trans (List.append_nil _)).symm
    · exact hnext.symm
    · simp
  | some tick =>
    let c : Call := ⟨id, hub, topic, leaseSeconds, .hastened (expiryOf now leaseSeconds)⟩
    have hstep : ({ s with calls := s.calls ++ [⟨id, hub, topic, leaseSeconds, .read⟩] }
        : System cs).step env service (.verifyHasten s.calls.length now) =
          some (s.hastened tick c) := by
      simp only [System.step, List.getElem?_concat_length, htick, if_true, set_concat_length]
      rfl
    have hcommit := System.step_verifyCommit (s := s.hastened tick c) (c := c) env service
      List.getElem?_concat_length rfl w.rest
    refine ⟨[.verifyHasten s.calls.length now, .verifyCommit s.calls.length w.rest], _,
      (Machine.exec_of_step hstep _).trans (Machine.exec_of_step hcommit []), .inr ⟨_, rfl⟩, ?_⟩
    exact sameEnd_committedBy (u := s.hastened tick c) (c := c)
      (w := { w with nextTick := fetchMin w.nextTick tick })
      (uniform_activate env service id hub topic (expiryOf now leaseSeconds))
      (Service.keepsTick_activate id hub topic (expiryOf now leaseSeconds)) rfl rfl
      (congrArg (fetchMin · tick) hnext.symm) hspawned
      (System.resumes_world (s := s.hastened tick c) hsaved hstore.symm) challenge

/-- Every call of `verify_intent` that subscribes, with any statements failing, is a list of steps
with nothing in between. -/
theorem verify_sequential (env : Env) (service : Service cs) (s : System cs) (now id : UInt64)
    (topic challenge : String) (leaseSeconds : UInt64) (d : Draws) :
    ∃ as t, (system env service).exec s (.verifyRead id topic leaseSeconds d :: as) = some t ∧
      (as = [] ∨ as = [.verifyHasten s.calls.length now] ∨
        ∃ d', as = [.verifyHasten s.calls.length now, .verifyCommit s.calls.length d']) ∧
      SameEnd s t challenge (service.verifyIntent env now id
        (some (.subscribe topic challenge leaseSeconds)) (s.world d)) := by
  obtain ⟨hstore, hsaved, hspawned, hnext⟩ :=
    query_spec (fun t => t.getHubOfInactiveSubscription id topic) (s.world d)
  rw [Service.verifyIntent]
  cases h : (getHubOfInactiveSubscription id topic : Db (Task cs) _) (s.world d) with
  | mk r w =>
    have hw : (query (fun t => t.getHubOfInactiveSubscription id topic) (s.world d)).2 = w :=
      congrArg Prod.snd h
    rw [hw] at hstore hsaved hspawned hnext
    -- the call has ended without finding a subscription
    have hended {out : Except Stop Answer × World (Task cs)} (hout : out.2 = w)
        (hne : out.1 ≠ .ok (.challenge challenge)) :
        SameEnd s { s with verifying := s.verified id topic } challenge out := by
      refine ⟨?_, ?_, ?_, iff_of_false hne ?_⟩
      · rw [hout, committed_of_saved hsaved, hstore]
        rfl
      · rw [hout, hspawned]
        exact (List.append_nil _).symm
      · rw [hout, hnext]
        rfl
      · simp
    cases r with
    | error e =>
      rw [Prog.bind_of_error h]
      refine ⟨[], _, Machine.exec_of_step ?_ [], .inl rfl, hended rfl (by simp)⟩
      simp only [system, System.step, h]
    | ok found =>
      rw [Prog.bind_of_ok h]
      cases found with
      | none =>
        refine ⟨[], _, Machine.exec_of_step ?_ [], .inl rfl, hended rfl (by simp)⟩
        simp only [system, System.step, h]
      | some hub =>
        obtain ⟨as, t, hexec, has, hend⟩ := System.found_sequential env service s now id hub topic
          challenge leaseSeconds hstore hsaved hspawned hnext
        refine ⟨as, t, (Machine.exec_of_step ?_ as).trans hexec, .inr has, hend⟩
        simp only [system, System.step, h]

end Calls

end Websub
