import Websub.Handshake
import Websub.Sending
import Websub.Sequential

/-!
# Requests from anyone

The service of `accept_all` on one request after another, each with a connection of its own.
Anyone can send a request, and the pool, each statement and each task may fail.

`callEffect` is everything that `Service::call` can do about a request, whatever fails.
`requests_safe` is what no list of requests can do : there is no new row, and none that is of
another hub, topic or secret, or has another expiry once it is active ; no hub and topic loses its
rows, or its active ones ; what was enqueued stays, and what is added are contents of the requests,
each with the topic and keyed with the secret of a row.
-/

namespace Websub

open Tables Programs Http

variable {cs : Charset} {hmac : Hmac} {B : Type}

/-! ## The code -/

/-- A request, with the time and what fails. -/
structure Arrival (cs : Charset) (B : Type) where
  now : UInt64
  request : Request cs B
  poolError : Option ℕ
  draws : Draws
  /-- The receiver of the channel is there. -/
  alive : Bool

/-- What there is between two requests. -/
structure Server (cs : Charset) (hmac : Hmac) (B : Type) where
  store : Subscriptions
  nextTick : UInt64
  /-- The requests that were spawned. -/
  requests : List (Task cs)
  /-- The channel, the oldest update first. -/
  rx : List (Update hmac B)

/-- What the client gets. -/
inductive Served
  | response (response : Response)
  /-- 500 with no body. -/
  | internalServerError
  /-- Nothing, as the task of the connection does not return. -/
  | dropped
deriving DecidableEq

/-- The reply of the service of `accept_all`. -/
def Served.of : Except CallError Response → Served
  | .ok r => .response r
  | .error (.connection .panicked) | .error (.connection .starved) => .dropped
  | .error (.connection (.error _)) | .error (.pool _) => .internalServerError

/-- What a call works on. -/
def Server.serving (v : Server cs hmac B) (a : Arrival cs B) : Serving cs hmac B :=
  ⟨.start v.store a.draws.faults a.draws.rng a.draws.fills v.nextTick, a.poolError, a.alive, v.rx⟩

/-- The service of `accept_all`, on one request. -/
def Service.serve (env : CallEnv) (service : Service cs) (v : Server cs hmac B)
    (a : Arrival cs B) : Served × Server cs hmac B :=
  let out := service.call env a.now a.request (v.serving a)
  (.of out.1,
    ⟨out.2.world.committed, out.2.world.nextTick, v.requests ++ out.2.world.spawned, out.2.rx⟩)

/-- One request after another. -/
def Service.serveAll (env : CallEnv) (service : Service cs) (v : Server cs hmac B)
    (as : List (Arrival cs B)) : Server cs hmac B :=
  as.foldl (fun v a => (service.serve env v a).2) v

/-! ## One request -/

section Verification

variable {env : Env} {service : Service cs}

/-- What a verification can do to the store, however it ends. -/
inductive VerifyEffect (env : Env) (service : Service cs) (now id : UInt64) (v : Option Verify)
    (w w' : World (Task cs)) : Except Stop Answer → Prop
  | failed {e : Stop} (store : w'.store = w.store) :
      VerifyEffect env service now id v w w' (.error e)
  | notFound (store : w'.store = w.store) : VerifyEffect env service now id v w w' (.ok .notFound)
  | ended {topic challenge : String} (intent : v = some (.unsubscribe topic challenge))
      (gone : ∀ r ∈ w.store, r.id = id.toInt64 → r.topic ≠ topic) (store : w'.store = w.store) :
      VerifyEffect env service now id v w w' (.ok (.challenge challenge))
  | activated {hub topic challenge : String} {leaseSeconds : UInt64} {tasks : List (Task cs)}
      (intent : v = some (.subscribe topic challenge leaseSeconds))
      (found : w.store.getHubOfInactiveSubscription id topic = some hub)
      (store : Activated env service id hub topic (expiryOf now leaseSeconds) w.store w'.store
        tasks) :
      VerifyEffect env service now id v w w' (.ok (.challenge challenge))

/-- Every call of `verify_intent` has one of these effects. -/
theorem verifyEffect (env : Env) (service : Service cs) (now id : UInt64) (v : Option Verify)
    (w : World (Task cs)) :
    VerifyEffect env service now id v w (service.verifyIntent env now id v w).2
      (service.verifyIntent env now id v w).1 := by
  cases h : service.verifyIntent env now id v w with
  | mk r w' =>
    match r, v with
    | .error e, v => exact .failed (Service.store_of_verifyIntent_error h)
    | .ok answer, none =>
      obtain ⟨ha, rfl⟩ := Prod.mk.inj h
      obtain rfl := Except.ok.inj ha
      exact .notFound rfl
    | .ok answer, some (.unsubscribe topic challenge) =>
      rw [Service.verifyIntent] at h
      obtain ⟨found, u, hu, h⟩ := Prog.ok_of_bind h
      obtain ⟨hfound, rfl⟩ := ok_of_statement hu
      obtain ⟨ha, rfl⟩ := Prod.mk.inj h
      obtain rfl := Except.ok.inj ha
      cases found with
      | true => exact .notFound rfl
      | false =>
        refine .ended rfl (fun r hr hid htopic => ?_) rfl
        exact Bool.false_ne_true (hfound.trans (subscriptionExists_iff.2 ⟨r, hr, hid, htopic⟩))
    | .ok answer, some (.subscribe topic challenge leaseSeconds) =>
      rw [Service.verifyIntent] at h
      obtain ⟨found, u, hu, h⟩ := Prog.ok_of_bind h
      obtain ⟨hfound, rfl⟩ := ok_of_statement hu
      cases found with
      | none =>
        obtain ⟨ha, rfl⟩ := Prod.mk.inj h
        obtain rfl := Except.ok.inj ha
        exact .notFound rfl
      | some hub =>
        simp only [Service.verifySubscription] at h
        cases htick : service.refreshTime env (expiryOf now leaseSeconds).toUInt64 with
        | none =>
          simp only [htick] at h
          cases (Prod.mk.inj h).1
        | some tick =>
          simp only [htick] at h
          obtain ⟨_, x, hx, h⟩ := Prog.ok_of_bind h
          obtain ⟨-, rfl⟩ := Prod.mk.inj hx
          obtain ⟨_, y, hy, h⟩ := Prog.ok_of_bind h
          obtain ⟨ha, rfl⟩ := Prod.mk.inj h
          obtain rfl := Except.ok.inj ha
          obtain ⟨tasks, -, -, hactivated⟩ := Service.activated_of_ok hy
          exact .activated rfl hfound.symm hactivated

/-- Only an answer with the challenge can have changed the store. -/
theorem VerifyEffect.store_eq {now id : UInt64} {v : Option Verify} {w w' : World (Task cs)}
    {result : Except Stop Answer} (h : VerifyEffect env service now id v w w' result)
    (hne : ∀ challenge, result ≠ .ok (.challenge challenge)) : w'.store = w.store := by
  cases h with
  | failed store | notFound store | ended _ _ store => exact store
  | activated => exact absurd rfl (hne _)

/-- However `verify_intent` ends, it spawns requests to unsubscribe only. -/
theorem Service.spawnsOnly_verifyIntent (env : Env) (service : Service cs) (now id : UInt64)
    (v : Option Verify) :
    SpawnsOnly (fun _ task => task.form.isSubscribe = false)
      (service.verifyIntent env now id v) := by
  match v with
  | none => exact Quiet.spawnsOnly fun _ => rfl
  | some (.unsubscribe topic challenge) =>
    exact SpawnsOnly.bind (quiet_statement _).spawnsOnly
      (fun _ => Quiet.spawnsOnly fun _ => rfl) fun _ h => h
  | some (.subscribe topic challenge leaseSeconds) =>
    refine SpawnsOnly.bind (quiet_statement _).spawnsOnly (fun found => ?_) fun _ h => h
    cases found with
    | none => exact Quiet.spawnsOnly fun _ => rfl
    | some hub =>
      simp only [Service.verifySubscription]
      split
      · exact (quiet_stop _).spawnsOnly
      · refine SpawnsOnly.bind (Quiet.spawnsOnly fun _ => rfl) (fun _ => ?_) fun _ h => h
        exact (spawnsOnly_activate env service id hub topic _).bind
          (fun _ => Quiet.spawnsOnly fun _ => rfl) fun _ h => h

end Verification

section Call

variable {env : CallEnv} {service : Service cs} {now : UInt64} {req : Request cs B}
  {s : Serving cs hmac B}

/-- What a request can do, however it ends. -/
inductive CallEffect (env : CallEnv) (service : Service cs) (now : UInt64) (req : Request cs B)
    (s s' : Serving cs hmac B) : Except CallError Response → Prop
  | failed {e : CallError} (store : s'.world.store = s.world.store) (rx : s'.rx = s.rx) :
      CallEffect env service now req s s' (.error e)
  | refused {status : StatusCode} (store : s'.world.store = s.world.store) (rx : s'.rx = s.rx) :
      CallEffect env service now req s s' (.ok (emptyResponse status))
  | answered {q : List Char} {id : UInt64} {challenge : String}
      (named : service.idOf env.toEnv req.uri = some id) (query : req.uri.query = some q)
      (effect : VerifyEffect env.toEnv service now id (env.verify q) s.world s'.world
        (.ok (.challenge challenge))) (rx : s'.rx = s.rx) :
      CallEffect env service now req s s' (.ok { body := challenge })
  | enqueued {r : Row} {sig : Signature}
      (named : service.idOf env.toEnv req.uri = some r.id.toUInt64) (query : req.uri.query = none)
      (row : r ∈ s.world.store) (parsed : Parsed env.features req.headers sig)
      (store : s'.world.store = s.world.store) (rx : s'.rx = s.rx ++ [updateOf hmac req r sig]) :
      CallEffect env service now req s s' (.ok {})

/-- A request with a query is a verification. -/
theorem callEffect_of_query {q : List Char} {id : UInt64}
    (hid : service.idOf env.toEnv req.uri = some id) (hq : req.uri.query = some q)
    (hpool : s.poolError = none) :
    CallEffect env service now req s (service.callFor env now req id s).2
      (service.callFor env now req id s).1 := by
  rw [callFor_of_query hq id hpool, onConn_answer]
  have heffect := verifyEffect env.toEnv service now id (env.verify q) s.world
  cases hresult : (service.verifyIntent env.toEnv now id (env.verify q) s.world).1 with
  | error e =>
    rw [hresult] at heffect
    exact .failed (heffect.store_eq fun _ h => by cases h) rfl
  | ok answer =>
    rw [hresult] at heffect
    cases answer with
    | notFound => exact .refused (heffect.store_eq fun _ h => by cases h) rfl
    | challenge challenge => exact .answered hid hq heffect rfl

/-- A request without a query is content. -/
theorem callEffect_of_no_query {id : UInt64} (hid : service.idOf env.toEnv req.uri = some id)
    (hq : req.uri.query = none) (hpool : s.poolError = none) :
    CallEffect env service now req s (service.callFor env now req id s).2
      (service.callFor env now req id s).1 := by
  cases hsig : selectSignature env.features (req.headers.getAll hubSignature) with
  | none =>
    unfold Service.callFor
    rw [Prog.bind_of_ok (getConn_of_none hpool), hq]
    simp only [hsig]
    exact .refused rfl rfl
  | some sig =>
    have hparsed := (selectSignature_spec _ _).1 sig hsig
    rw [callFor_of_no_query hq id hpool hsig]
    cases hcols : getTopic id s.world with
    | mk result world =>
      have hstore : world.store = s.world.store := by
        rw [← store_of_query (fun t => t.getTopic id) s.world]
        exact congrArg (fun p => World.store p.2) hcols.symm
      cases result with
      | error e =>
        rw [Prog.bind_of_error (onConn_of_error hcols)]
        exact .failed hstore rfl
      | ok cols =>
        rw [Prog.bind_of_ok (onConn_of_ok hcols)]
        have hread := (ok_of_statement hcols).1
        cases cols with
        | none => exact .refused hstore rfl
        | some cols =>
          obtain ⟨r, hr, hrid, rfl⟩ := getTopic_eq_some_iff.1 hread.symm
          simp only [startSend]
          rw [Prog.bind_of_ok (Prog.modify_apply _ _)]
          split
          · refine .enqueued ?_ hq hr hparsed hstore rfl
            rw [hid, hrid, UInt64.toUInt64_toInt64]
          · exact .refused hstore rfl

/-- Everything that `Service::call` can do about a request, whatever fails. -/
theorem callEffect (env : CallEnv) (service : Service cs) (now : UInt64) (req : Request cs B)
    (s : Serving cs hmac B) :
    CallEffect env service now req s (service.call env now req s).2
      (service.call env now req s).1 := by
  cases hid : service.idOf env.toEnv req.uri with
  | none =>
    obtain ⟨status, -, hcall⟩ := call_of_idOf_eq_none hid now s
    rw [hcall]
    exact .refused rfl rfl
  | some id =>
    rw [call_of_idOf_eq_some hid]
    cases hpool : s.poolError with
    | some code =>
      unfold Service.callFor
      rw [Prog.bind_of_error (getConn_of_some hpool)]
      exact .failed rfl rfl
    | none =>
      cases hq : req.uri.query with
      | some q => exact callEffect_of_query hid hq hpool
      | none => exact callEffect_of_no_query hid hq hpool

/-- What holds after each of the calls on a connection holds after a request. -/
theorem call_world {P : World (Task cs) → Prop} (hnone : P s.world)
    (htopic : ∀ id, P (getTopic id s.world).2)
    (hverify : ∀ id v, P (service.verifyIntent env.toEnv now id v s.world).2) :
    P (service.call env now req s).2.world := by
  cases hid : service.idOf env.toEnv req.uri with
  | none =>
    obtain ⟨status, -, hcall⟩ := call_of_idOf_eq_none hid now s
    rw [hcall]
    exact hnone
  | some id =>
    rw [call_of_idOf_eq_some hid]
    cases hpool : s.poolError with
    | some code =>
      unfold Service.callFor
      rw [Prog.bind_of_error (getConn_of_some hpool)]
      exact hnone
    | none =>
      cases hq : req.uri.query with
      | some q =>
        rw [callFor_of_query hq id hpool, onConn_answer]
        exact hverify id _
      | none =>
        cases hsig : selectSignature env.features (req.headers.getAll hubSignature) with
        | none =>
          unfold Service.callFor
          rw [Prog.bind_of_ok (getConn_of_none hpool), hq]
          simp only [hsig]
          exact hnone
        | some sig =>
          have htopic := htopic id
          rw [callFor_of_no_query hq id hpool hsig]
          cases hcols : getTopic id s.world with
          | mk result world =>
            rw [hcols] at htopic
            cases result with
            | error e =>
              rw [Prog.bind_of_error (onConn_of_error hcols)]
              exact htopic
            | ok cols =>
              rw [Prog.bind_of_ok (onConn_of_ok hcols)]
              cases cols with
              | none => exact htopic
              | some cols =>
                simp only [startSend]
                rw [Prog.bind_of_ok (Prog.modify_apply _ _)]
                split <;> exact htopic

/-- A call takes nothing back that was spawned. -/
theorem extends_call (env : CallEnv) (service : Service cs) (now : UInt64) (req : Request cs B)
    (s : Serving cs hmac B) : Extends s.world (service.call env now req s).2.world :=
  call_world (Extends.refl _) (fun _ => keeps_query _ _) fun id v =>
    Service.keeps_verifyIntent env.toEnv service now id v _

/-- A request spawns requests to unsubscribe only. -/
theorem spawned_call (env : CallEnv) (service : Service cs) (now : UInt64) (req : Request cs B)
    (s : Serving cs hmac B) :
    ∃ tasks, (service.call env now req s).2.world.spawned = s.world.spawned ++ tasks ∧
      ∀ task ∈ tasks, task.form.isSubscribe = false := by
  have hquiet {α : Type} {x : Db (Task cs) α} (hx : Quiet x) :
      SpawnsOnly (fun _ task => task.form.isSubscribe = false) x := hx.spawnsOnly
  refine call_world (P := fun w => ∃ tasks, w.spawned = s.world.spawned ++ tasks ∧
    ∀ task ∈ tasks, task.form.isSubscribe = false) ?_ (fun id => ?_) fun id v => ?_
  · exact hquiet (x := pure ()) (fun _ => rfl) s.world
  · exact hquiet (x := getTopic id) (quiet_statement _) s.world
  · exact Service.spawnsOnly_verifyIntent env.toEnv service now id v s.world

end Call

/-! ## Any requests -/

section Safe

variable {env : CallEnv} {service : Service cs} {v v' v'' : Server cs hmac B}
  {as bs : List (Arrival cs B)}

/-- The request knows the id and the topic of a row, and asks whether it is meant until a time. -/
def Confirms (env : CallEnv) (service : Service cs) (a : Arrival cs B) (r : Row)
    (expiresAt : Int64) : Prop :=
  service.idOf env.toEnv a.request.uri = some r.id.toUInt64 ∧
    ∃ q challenge leaseSeconds, a.request.uri.query = some q ∧
      env.verify q = some (.subscribe r.topic challenge leaseSeconds) ∧
      expiresAt = expiryOf a.now leaseSeconds

/-- The row was confirmed by one of the requests. -/
def ConfirmedBy (env : CallEnv) (service : Service cs) (as : List (Arrival cs B)) (r : Row)
    (expiresAt : Int64) : Prop :=
  ∃ a ∈ as, Confirms env service a r expiresAt

/-- The update is the content of one of the requests, which knows the id of a row, with the topic
and for the secret of the row. -/
def ContentOf (env : CallEnv) (service : Service cs) (as : List (Arrival cs B)) (t : Subscriptions)
    (u : Update hmac B) : Prop :=
  ∃ a ∈ as, ∃ r ∈ t, ∃ sig, service.idOf env.toEnv a.request.uri = some r.id.toUInt64 ∧
    Parsed env.features a.request.headers sig ∧ u = updateOf hmac a.request r sig

/-- What requests leave of the rows. -/
structure KeepsRows (env : CallEnv) (service : Service cs) (as : List (Arrival cs B))
    (t t' : Subscriptions) : Prop where
  /-- No row is new or has changed, but for the expiry of one that was inactive and confirmed. -/
  same : ∀ r' ∈ t', ∃ r ∈ t, r.Same r' ∧ (r'.expiresAt = r.expiresAt ∨
    r.expiresAt = none ∧ ∃ e, r'.expiresAt = some e ∧ ConfirmedBy env service as r e)
  /-- A row stays, or one of the same hub and topic was confirmed, and what was active stays so. -/
  kept : ∀ r ∈ t, ∃ r' ∈ t', r'.hub = r.hub ∧ r'.topic = r.topic ∧
    (r.expiresAt ≠ none → r'.expiresAt ≠ none) ∧ (r' = r ∨ ∃ e, ConfirmedBy env service as r' e)

/-- What requests leave of the rows, and add to the channel and to what is spawned. -/
structure Safe (env : CallEnv) (service : Service cs) (as : List (Arrival cs B))
    (v v' : Server cs hmac B) : Prop where
  store : KeepsRows env service as v.store v'.store
  rx : ∃ us, v'.rx = v.rx ++ us ∧ ∀ u ∈ us, ContentOf env service as v.store u
  requests : ∃ tasks, v'.requests = v.requests ++ tasks ∧
    ∀ task ∈ tasks, task.form.isSubscribe = false

theorem Row.Same.refl (r : Row) : r.Same r :=
  ⟨rfl, rfl, rfl, rfl⟩

theorem Row.Same.trans {r r' r'' : Row} (h : r.Same r') (h' : r'.Same r'') : r.Same r'' :=
  ⟨h.1.trans h'.1, h.2.1.trans h'.2.1, h.2.2.1.trans h'.2.2.1, h.2.2.2.trans h'.2.2.2⟩

/-- What some requests have confirmed more requests have confirmed. -/
theorem ConfirmedBy.mono {r : Row} {e : Int64} (hsub : as ⊆ bs)
    (h : ConfirmedBy env service as r e) : ConfirmedBy env service bs r e := by
  obtain ⟨a, ha, h⟩ := h
  exact ⟨a, hsub ha, h⟩

/-- What a row is confirmed with is its id and its topic. -/
theorem ConfirmedBy.of_same {r r' : Row} {e : Int64} (hsame : r.Same r')
    (h : ConfirmedBy env service as r' e) : ConfirmedBy env service as r e := by
  obtain ⟨hid, -, htopic, -⟩ := hsame
  unfold ConfirmedBy Confirms at h ⊢
  rwa [hid, htopic]

/-- No request changes no row. -/
theorem KeepsRows.refl (as : List (Arrival cs B)) (t : Subscriptions) :
    KeepsRows env service as t t where
  same r hr := ⟨r, hr, .refl r, .inl rfl⟩
  kept r hr := ⟨r, hr, rfl, rfl, id, .inl rfl⟩

/-- What two lists of requests keep both keep together. -/
theorem KeepsRows.append {t t' t'' : Subscriptions} (h : KeepsRows env service as t t')
    (h' : KeepsRows env service bs t' t'') : KeepsRows env service (as ++ bs) t t'' where
  same r'' hr'' := by
    obtain ⟨r', hr', hsame', hexpiry'⟩ := h'.same r'' hr''
    obtain ⟨r, hr, hsame, hexpiry⟩ := h.same r' hr'
    refine ⟨r, hr, hsame.trans hsame', ?_⟩
    rcases hexpiry' with heq' | ⟨hnone', e, he, hconfirmed'⟩
    · rcases hexpiry with heq | ⟨hnone, e, he, hconfirmed⟩
      · exact .inl (heq'.trans heq)
      · exact .inr ⟨hnone, e, heq'.trans he, hconfirmed.mono (List.subset_append_left _ _)⟩
    · -- what is confirmed now was inactive until now
      rcases hexpiry with heq | ⟨-, e, he, -⟩
      · exact .inr ⟨heq.symm.trans hnone', e, he,
          (hconfirmed'.mono (List.subset_append_right _ _)).of_same hsame⟩
      · cases hnone'.symm.trans he
  kept r hr := by
    obtain ⟨r', hr', hhub, htopic, hactive, hkept⟩ := h.kept r hr
    obtain ⟨r'', hr'', hhub', htopic', hactive', hkept'⟩ := h'.kept r' hr'
    refine ⟨r'', hr'', hhub'.trans hhub, htopic'.trans htopic,
      fun hne => hactive' (hactive hne), ?_⟩
    rcases hkept' with rfl | ⟨e, hconfirmed'⟩
    · exact hkept.imp_right fun ⟨e, hconfirmed⟩ =>
        ⟨e, hconfirmed.mono (List.subset_append_left _ _)⟩
    · exact .inr ⟨e, hconfirmed'.mono (List.subset_append_right _ _)⟩

/-- What the confirmation of a row leaves : its row is active, and what is gone has its hub and
topic. -/
theorem Activated.keepsRows {id : UInt64} {hub topic challenge : String} {leaseSeconds : UInt64}
    {tasks : List (Task cs)} {a : Arrival cs B} {q : List Char} {t t' : Subscriptions}
    (hnamed : service.idOf env.toEnv a.request.uri = some id)
    (hquery : a.request.uri.query = some q)
    (hintent : env.verify q = some (.subscribe topic challenge leaseSeconds))
    (hfound : t.getHubOfInactiveSubscription id topic = some hub)
    (hstore : Activated env.toEnv service id hub topic (expiryOf a.now leaseSeconds) t t' tasks) :
    KeepsRows env service [a] t t' := by
  obtain ⟨p, hp, hpid, rfl, hnone, rfl⟩ := getHubOfInactiveSubscription_eq_some_iff.1 hfound
  have hconfirmed {r : Row} (hid : r.id = id.toInt64) (ht : r.topic = p.topic) :
      ConfirmedBy env service [a] r (expiryOf a.now leaseSeconds) := by
    refine ⟨a, List.mem_singleton_self a, ?_, _, challenge, leaseSeconds, hquery, ?_, rfl⟩
    · rw [hnamed, hid, UInt64.toUInt64_toInt64]
    · rw [hintent, ht]
  have hleft {r : Row} (hr : r ∈ t) (hold : r.isOld id p.hub p.topic = false) :
      r.activate id (expiryOf a.now leaseSeconds) ∈ t' := hstore.mem_iff.2 ⟨r, hr, hold, rfl⟩
  refine ⟨fun r' hr' => ?_, fun r hr => ?_⟩
  · obtain ⟨r, hr, -, rfl⟩ := hstore.mem_iff.1 hr'
    refine ⟨r, hr, by simp [Row.Same], ?_⟩
    by_cases hid : r.id = id.toInt64
    · obtain rfl := Table.eq_of_key hr hp (hid.trans hpid.symm)
      exact .inr ⟨hnone, _, by rw [Row.activate_of_eq hid], hconfirmed hid rfl⟩
    · exact .inl (by rw [Row.activate_of_ne hid])
  · cases hold : r.isOld id p.hub p.topic with
    | true =>
      have hpold : p.isOld id p.hub p.topic = false := by simp [Row.isOld, hpid]
      simp only [Row.isOld, Bool.and_eq_true, decide_eq_true_eq] at hold
      obtain ⟨⟨hhub, htopic⟩, -⟩ := hold
      refine ⟨_, hleft hp hpold, by simp [hhub], by simp [htopic], fun _ => ?_, ?_⟩
      · simp [Row.activate_of_eq hpid]
      · exact .inr ⟨_, hconfirmed (by simp [hpid]) (by simp)⟩
    | false =>
      refine ⟨_, hleft hr hold, by simp, by simp, fun hne => ?_, ?_⟩
      · by_cases hid : r.id = id.toInt64
        · simp [Row.activate_of_eq hid]
        · rwa [Row.activate_of_ne hid]
      · by_cases hid : r.id = id.toInt64
        · obtain rfl := Table.eq_of_key hr hp (hid.trans hpid.symm)
          exact .inr ⟨_, hconfirmed (by simp [hid]) (by simp)⟩
        · exact .inl (Row.activate_of_ne hid)

/-- An update for a row that has been left is one for the row there was. -/
theorem ContentOf.trans {u : Update hmac B} (hsafe : Safe env service as v v')
    (h : ContentOf env service bs v'.store u) : ContentOf env service (as ++ bs) v.store u := by
  obtain ⟨a, ha, r', hr', sig, hid, hparsed, rfl⟩ := h
  obtain ⟨r, hr, ⟨hrid, -, htopic, hsecret⟩, -⟩ := hsafe.store.same r' hr'
  refine ⟨a, List.mem_append_right _ ha, r, hr, sig, hrid ▸ hid, hparsed, ?_⟩
  unfold updateOf
  rw [htopic, hsecret]

/-- No request does nothing. -/
theorem Safe.refl (v : Server cs hmac B) : Safe env service [] v v where
  store := .refl [] v.store
  rx := ⟨[], (List.append_nil _).symm, List.forall_mem_nil _⟩
  requests := ⟨[], (List.append_nil _).symm, List.forall_mem_nil _⟩

/-- Requests after requests. -/
theorem Safe.append (h : Safe env service as v v') (h' : Safe env service bs v' v'') :
    Safe env service (as ++ bs) v v'' where
  store := h.store.append h'.store
  rx := by
    obtain ⟨us, hus, hcontent⟩ := h.rx
    obtain ⟨us', hus', hcontent'⟩ := h'.rx
    refine ⟨us ++ us', by rw [hus', hus, List.append_assoc], fun u hu => ?_⟩
    rcases List.mem_append.1 hu with hu | hu
    · obtain ⟨a, ha, hrow⟩ := hcontent u hu
      exact ⟨a, List.mem_append_left _ ha, hrow⟩
    · exact (hcontent' u hu).trans h
  requests := by
    obtain ⟨tasks, htasks, hsub⟩ := h.requests
    obtain ⟨tasks', htasks', hsub'⟩ := h'.requests
    exact ⟨tasks ++ tasks', by rw [htasks', htasks, List.append_assoc],
      List.forall_mem_append.2 ⟨hsub, hsub'⟩⟩

/-- One request, on the store and the channel. -/
theorem CallEffect.keeps {a : Arrival cs B} {s s' : Serving cs hmac B}
    {result : Except CallError Response}
    (h : CallEffect env service a.now a.request s s' result) :
    KeepsRows env service [a] s.world.store s'.world.store ∧
      ∃ us, s'.rx = s.rx ++ us ∧ ∀ u ∈ us, ContentOf env service [a] s.world.store u := by
  have hnone (hrx : s'.rx = s.rx) :
      ∃ us, s'.rx = s.rx ++ us ∧ ∀ u ∈ us, ContentOf env service [a] s.world.store u :=
    ⟨[], hrx.trans (List.append_nil _).symm, List.forall_mem_nil _⟩
  cases h with
  | failed store rx | refused store rx => exact ⟨store ▸ .refl _ _, hnone rx⟩
  | answered named query effect rx =>
    refine ⟨?_, hnone rx⟩
    cases effect with
    | ended intent gone store => exact store ▸ .refl _ _
    | activated intent found store => exact store.keepsRows named query intent found
  | enqueued named query row parsed store rx =>
    refine ⟨store ▸ .refl _ _, _, rx, List.forall_mem_singleton.2 ?_⟩
    exact ⟨a, List.mem_singleton_self a, _, row, _, named, parsed, rfl⟩

/-- No transaction is open after a request. -/
theorem Service.store_serve (env : CallEnv) (service : Service cs) (v : Server cs hmac B)
    (a : Arrival cs B) : (service.serve env v a).2.store =
      (service.call env a.now a.request (v.serving a)).2.world.store :=
  committed_of_saved (extends_call env service a.now a.request (v.serving a)).saved

/-- A request that is not answered with 200 leaves the rows and the channel as they were. -/
theorem Service.kept_of_not_ok (env : CallEnv) (service : Service cs) (v : Server cs hmac B)
    (a : Arrival cs B)
    (hne : ∀ body, (service.serve env v a).1 ≠ .response { status := .ok, body }) :
    (service.serve env v a).2.store = v.store ∧ (service.serve env v a).2.rx = v.rx := by
  have hrx : (service.serve env v a).2.rx =
      (service.call env a.now a.request (v.serving a)).2.rx := rfl
  have heffect := callEffect env service a.now a.request (v.serving a)
  have hne : ∀ body, (service.call env a.now a.request (v.serving a)).1 ≠
      .ok { status := .ok, body } := fun body h => hne body (by rw [Service.serve, h, Served.of])
  rw [service.store_serve, hrx]
  cases h : (service.call env a.now a.request (v.serving a)).1 with
  | error e =>
    rw [h] at heffect
    cases heffect with
    | failed store rx => exact ⟨store, rx⟩
  | ok r =>
    rw [h] at heffect hne
    cases heffect with
    | refused store rx => exact ⟨store, rx⟩
    | answered | enqueued => exact absurd rfl (hne _)

/-- One request. -/
theorem Service.safe_serve (env : CallEnv) (service : Service cs) (v : Server cs hmac B)
    (a : Arrival cs B) : Safe env service [a] v (service.serve env v a).2 := by
  have hstore := service.store_serve env v a
  obtain ⟨tasks, htasks, hsub⟩ := spawned_call env service a.now a.request (v.serving a)
  obtain ⟨hrows, hrx⟩ := (callEffect env service a.now a.request (v.serving a)).keeps
  exact ⟨hstore ▸ hrows, hrx, tasks, congrArg (v.requests ++ ·) htasks, hsub⟩

/-- For every list of requests, with anything failing : no row is new or has another hub, topic or
secret, and none another expiry unless it was inactive and a request knows its id and topic. No hub
and topic loses its rows or its active ones, and a row is only gone where another one of its hub and
topic was confirmed. What was enqueued stays, and each new update is the content of a request that
knows the id of a row, with the topic and for the secret of that row. All the new requests are to
unsubscribe. -/
theorem requests_safe (env : CallEnv) (service : Service cs) (v : Server cs hmac B)
    (as : List (Arrival cs B)) : Safe env service as v (service.serveAll env v as) := by
  induction as generalizing v with
  | nil => exact .refl v
  | cons a as ih => exact (service.safe_serve env v a).append (ih _)

end Safe

end Websub
