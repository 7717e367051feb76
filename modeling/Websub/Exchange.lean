import Websub.Protocol
import Websub.Sequential

/-!
# Whole requests of hubs

A request of a hub to the callback of a form, taken whole : `Service::call` on it leaves and answers
what steps of the protocol do with nothing in between (`exchange`). So what holds in every reachable
state of the protocol is about the code, with any steps between those of a call.
-/

namespace Websub

open Machines Tables Programs Http

variable {cs : Charset} {hmac : Hmac} {B : Type}

/-- What steps of the protocol have left is what a call has left, and the hub of the form has its
answer if the call has returned the challenge. -/
structure Exchanged (p q : Protocol cs) (m : Message cs) (challenge : String)
    (out : Except CallError Response × Serving cs hmac B) : Prop where
  store : q.system.store = out.2.world.committed
  requests : q.system.requests = p.system.requests ++ out.2.world.spawned
  sent : q.sent = p.sent ++ out.2.world.spawned.map Task.message
  nextTick : q.system.scheduler.nextTick = out.2.world.nextTick
  records : q.records = p.records
  answered : out.1 = .ok { body := challenge } ∧ q.answered = p.answered ++ [m] ∨
    out.1 ≠ .ok { body := challenge } ∧ q.answered = p.answered

/-- The steps of the `n`-th call after its first one. -/
def CallSteps (n : ℕ) (now : UInt64) (as : List (SystemAction cs)) : Prop :=
  as = [] ∨ as = [.verifyHasten n now] ∨ ∃ d, as = [.verifyHasten n now, .verifyCommit n d]

/-- The `n`-th call has been answered with its challenge. -/
def System.Answered (s : System cs) (n : ℕ) : Prop :=
  ∃ c, s.calls[n]? = some c ∧ c.stage = .answered s.store

section Steps

variable {env : Env} {service : Service cs} {s t : System cs} {p : Protocol cs}

/-- What a step of the system is in the protocol. -/
theorem Protocol.step_system {a : SystemAction cs} (ha : a.startsCall = false)
    (h : p.system.step env service a = some t) :
    (protocol env service).step p (.system a) = some { p with
      system := t
      sent := p.sent ++ (t.requests.drop p.system.requests.length).map Task.message
      asking := p.asking.take t.calls.length
      answered := p.answered ++ p.answering a t } := by
  simp only [protocol, Protocol.step, ha, h]
  rfl

/-- A call that has been started has not answered. -/
theorem System.of_verifyRead {id : UInt64} {topic : String} {leaseSeconds : UInt64} {d : Draws}
    (h : s.step env service (.verifyRead id topic leaseSeconds d) = some t) :
    t.requests = s.requests ∧
      (t.calls = s.calls ∨ ∃ c, t.calls = s.calls ++ [c] ∧ c.stage = .read) := by
  cases System.outcome_of_step h with
  | verifyRead found => exact ⟨rfl, .inr ⟨_, rfl, rfl⟩⟩
  | verifyReadFail => exact ⟨rfl, .inl rfl⟩

/-- A call that has come as far as hastening the next tick has not answered. -/
theorem System.of_verifyHasten {i : ℕ} {now : UInt64}
    (h : s.step env service (.verifyHasten i now) = some t) :
    t.requests = s.requests ∧ t.calls.length = s.calls.length ∧ i < s.calls.length ∧
      ¬t.Answered i := by
  cases System.outcome_of_step h with
  | verifyHasten call | verifyHastenFail call =>
    obtain ⟨hi, -⟩ := List.getElem?_eq_some_iff.1 call
    refine ⟨rfl, List.length_set, hi, fun ⟨c, hc, hstage⟩ => ?_⟩
    rw [List.getElem?_set_self hi] at hc
    obtain rfl := Option.some_inj.1 hc
    cases hstage

/-- A transaction leaves as many calls as there were. -/
theorem System.of_verifyCommit {i : ℕ} {d : Draws}
    (h : s.step env service (.verifyCommit i d) = some t) :
    t.calls.length = s.calls.length := by
  cases System.outcome_of_step h with
  | verifyCommit | verifyCommitFail => exact List.length_set

theorem answersChallenge_iff {i : ℕ} {d : Draws} :
    answersChallenge t (.verifyCommit i d) = true ↔ t.Answered i := by
  unfold answersChallenge
  rw [Option.any_eq_true]
  exact exists_congr fun c => and_congr_right fun _ => decide_eq_true_iff

/-- A call that hastens the next tick sends nothing and answers nobody. -/
theorem Protocol.step_verifyHasten (hlen : p.asking.length = p.system.calls.length) {i : ℕ}
    {now : UInt64} (h : p.system.step env service (.verifyHasten i now) = some t) :
    (protocol env service).step p (.system (.verifyHasten i now)) =
      some { p with system := t } := by
  obtain ⟨hrequests, hcalls, -⟩ := System.of_verifyHasten h
  rw [Protocol.step_system rfl h]
  simp [hrequests, hcalls, ← hlen, Protocol.answering]

/-- A transaction answers the hub of its call, and no other. -/
theorem Protocol.step_verifyCommit (hlen : p.asking.length = p.system.calls.length) {i : ℕ}
    {m : Message cs} (hm : p.asking[i]? = some m) {d : Draws}
    (h : p.system.step env service (.verifyCommit i d) = some t) :
    ∃ answers, (protocol env service).step p (.system (.verifyCommit i d)) = some { p with
      system := t
      sent := p.sent ++ (t.requests.drop p.system.requests.length).map Task.message
      answered := p.answered ++ answers } ∧
      (t.Answered i ∧ answers = [m] ∨ ¬t.Answered i ∧ answers = []) := by
  refine ⟨p.answering (.verifyCommit i d) t, ?_, ?_⟩
  · rw [Protocol.step_system rfl h]
    simp [System.of_verifyCommit h, ← hlen]
  · simp only [Protocol.answering, hm, Option.toList_some]
    split <;> rename_i hanswers
    · exact .inl ⟨answersChallenge_iff.1 hanswers, rfl⟩
    · exact .inr ⟨mt answersChallenge_iff.2 hanswers, rfl⟩

/-- The steps of a hub's request about a form to subscribe, with nothing in between, are those of
the call. -/
theorem Protocol.exec_verify (hlen : p.asking.length = p.system.calls.length) {i : ℕ}
    {m : Message cs} (hm : p.sent[i]? = some m) {id : UInt64}
    (hid : service.idOf env m.form.callback = some id) {callback : Uri cs} {topic secret : String}
    (hform : m.form = .subscribe callback topic secret) {leaseSeconds now : UInt64} {d : Draws}
    {as : List (SystemAction cs)} (has : CallSteps p.system.calls.length now as)
    (h : (Websub.system env service).exec p.system (.verifyRead id topic leaseSeconds d :: as) =
      some t) :
    ∃ q answers,
      (protocol env service).exec p (.verify i leaseSeconds d :: as.map .system) = some q ∧
      q.system = t ∧ q.records = p.records ∧
      q.sent = p.sent ++ (t.requests.drop p.system.requests.length).map Task.message ∧
      q.answered = p.answered ++ answers ∧
      (t.Answered p.system.calls.length ∧ answers = [m] ∨
        ¬t.Answered p.system.calls.length ∧ answers = []) := by
  rw [Machine.exec_cons, Option.bind_eq_some_iff] at h
  obtain ⟨u, hu, h⟩ := h
  replace hu : p.system.step env service (.verifyRead id topic leaseSeconds d) = some u := hu
  obtain ⟨hrequests, hcalls⟩ := System.of_verifyRead hu
  have hstep : (protocol env service).step p (.verify i leaseSeconds d) = some { p with
      system := u
      asking := if u.calls = p.system.calls then p.asking else p.asking ++ [m] } := by
    simp only [protocol, Protocol.step, hm, hid]
    unfold Protocol.ask
    simp only [hform]
    exact congrArg (Option.map _) hu
  rcases has with rfl | has
  · obtain rfl := Option.some_inj.1 h
    refine ⟨{ p with system := u, asking := _ }, [], Machine.exec_of_step hstep [], rfl, rfl,
      by simp [hrequests], (List.append_nil _).symm, .inr ⟨?_, rfl⟩⟩
    rintro ⟨c, hc, hstage⟩
    rcases hcalls with hcalls | ⟨c', hcalls, hread⟩
    · simp [hcalls] at hc
    · simp only [hcalls, List.getElem?_concat_length, Option.some_inj] at hc
      cases hread.symm.trans (hc ▸ hstage)
  · obtain ⟨bs, rfl, hbs⟩ : ∃ bs, as = .verifyHasten p.system.calls.length now :: bs ∧
        (bs = [] ∨ ∃ d', bs = [.verifyCommit p.system.calls.length d']) := by
      rcases has with rfl | ⟨d', rfl⟩
      · exact ⟨[], rfl, .inl rfl⟩
      · exact ⟨_, rfl, .inr ⟨d', rfl⟩⟩
    rw [Machine.exec_cons, Option.bind_eq_some_iff] at h
    obtain ⟨v, hv, h⟩ := h
    obtain ⟨hrequests', hlength, hlt, hnot⟩ := System.of_verifyHasten hv
    -- the call has been started, so its hub waits for an answer
    have hne : u.calls ≠ p.system.calls := fun h => by simp [h] at hlt
    have hlen' : (p.asking ++ [m]).length = u.calls.length := by
      rcases hcalls with hcalls | ⟨c, hcalls, -⟩
      · exact absurd hcalls hne
      · simp [hcalls, hlen]
    rw [if_neg hne] at hstep
    have hhasten := Protocol.step_verifyHasten
      (p := { p with system := u, asking := p.asking ++ [m] }) hlen' hv
    rcases hbs with rfl | ⟨d', rfl⟩
    · obtain rfl := Option.some_inj.1 h
      exact ⟨{ p with system := v, asking := p.asking ++ [m] }, [],
        (Machine.exec_of_step hstep _).trans (Machine.exec_of_step hhasten []), rfl, rfl,
        by simp [hrequests', hrequests], (List.append_nil _).symm, .inr ⟨hnot, rfl⟩⟩
    · rw [Machine.exec_cons, Option.bind_eq_some_iff] at h
      obtain ⟨x, hx, h⟩ := h
      obtain rfl := Option.some_inj.1 h
      obtain ⟨answers, hcommit, hanswers⟩ := Protocol.step_verifyCommit
        (p := { p with system := v, asking := p.asking ++ [m] }) (hlen'.trans hlength.symm)
        (by rw [← hlen, List.getElem?_concat_length]) hx
      have hexec := Machine.exec_of_step hcommit []
      refine ⟨{ p with system := x, sent := _, asking := _, answered := p.answered ++ answers },
        answers, (Machine.exec_of_step hstep _).trans
          ((Machine.exec_of_step hhasten _).trans hexec), rfl, rfl, ?_, rfl, hanswers⟩
      rw [hrequests', hrequests]

end Steps

section Exchange

variable {env : CallEnv} {service : Service cs} {p : Protocol cs} {m : Message cs}

/-- The answer of the service, for that of `verify_intent`. -/
theorem Answer.result_eq_challenge_iff {result : Except Stop Answer} {challenge : String} :
    Answer.result result = .ok { body := challenge } ↔ result = .ok (.challenge challenge) := by
  rw [← Answer.result_injective.eq_iff]
  rfl

/-- A hub's request about a form to subscribe is up to three steps. -/
theorem exchanged_of_subscribe (hlen : p.asking.length = p.system.calls.length) {i : ℕ}
    (hm : p.sent[i]? = some m) {id : UInt64}
    (hid : service.idOf env.toEnv m.form.callback = some id) {callback : Uri cs}
    {topic secret : String} (hform : m.form = .subscribe callback topic secret)
    (challenge : String) (leaseSeconds now : UInt64) (d : Draws)
    {out : Except CallError Response × Serving cs hmac B}
    (hresult : out.1 = Answer.result (service.verifyIntent env.toEnv now id
      (some (.subscribe topic challenge leaseSeconds)) (p.system.world d)).1)
    (hworld : out.2.world = (service.verifyIntent env.toEnv now id
      (some (.subscribe topic challenge leaseSeconds)) (p.system.world d)).2) :
    ∃ as q, (protocol env.toEnv service).exec p
        (.verify i leaseSeconds d :: as.map .system) = some q ∧
      CallSteps p.system.calls.length now as ∧ Exchanged p q m challenge out := by
  obtain ⟨as, t, hexec, has, hend⟩ := verify_sequential env.toEnv service p.system now id topic
    challenge leaseSeconds d
  obtain ⟨q, answers, hq, rfl, hrecords, hsent, hanswered, hanswers⟩ :=
    Protocol.exec_verify hlen hm hid hform has hexec
  have hanswer : out.1 = .ok { body := challenge } ↔ q.system.Answered p.system.calls.length := by
    rw [hresult, Answer.result_eq_challenge_iff]
    exact hend.answer
  refine ⟨as, q, hq, has, ?_⟩
  have hnew := hend.requests
  rw [← hworld] at hnew
  refine ⟨by rw [hworld, hend.store], hnew, ?_, by rw [hworld, hend.nextTick], hrecords, ?_⟩
  · rw [hsent, hnew, List.drop_left]
  · rcases hanswers with ⟨h, rfl⟩ | ⟨h, rfl⟩
    · exact .inl ⟨hanswer.2 h, hanswered⟩
    · exact .inr ⟨mt hanswer.1 h, hanswered.trans (List.append_nil _)⟩

/-- Where a call only reads, the hub is told at most. -/
theorem exchanged_of_query {challenge : String} {answered : List (Message cs)}
    {out : Except CallError Response × Serving cs hmac B}
    (hstore : out.2.world.store = p.system.store) (hsaved : out.2.world.saved = [])
    (hspawned : out.2.world.spawned = [])
    (hnext : out.2.world.nextTick = p.system.scheduler.nextTick)
    (hanswered : out.1 = .ok { body := challenge } ∧ answered = p.answered ++ [m] ∨
      out.1 ≠ .ok { body := challenge } ∧ answered = p.answered) :
    Exchanged p { p with answered } m challenge out := by
  refine ⟨?_, ?_, ?_, hnext.symm, rfl, hanswered⟩
  · rw [committed_of_saved hsaved, hstore]
  · rw [hspawned, List.append_nil]
  · rw [hspawned, List.map_nil, List.append_nil]

/-- A hub's request about a form to unsubscribe is one step. -/
theorem exchanged_of_unsubscribe {i : ℕ} (hm : p.sent[i]? = some m) {id : UInt64}
    (hid : service.idOf env.toEnv m.form.callback = some id) {callback : Uri cs} {topic : String}
    (hform : m.form = .unsubscribe callback topic) (challenge : String)
    (leaseSeconds now : UInt64) (d : Draws) {out : Except CallError Response × Serving cs hmac B}
    (hresult : out.1 = Answer.result (service.verifyIntent env.toEnv now id
      (some (.unsubscribe topic challenge)) (p.system.world d)).1)
    (hworld : out.2.world = (service.verifyIntent env.toEnv now id
      (some (.unsubscribe topic challenge)) (p.system.world d)).2) :
    ∃ q, (protocol env.toEnv service).exec p [.verify i leaseSeconds d] = some q ∧
      Exchanged p q m challenge out := by
  obtain ⟨hstore, hsaved, hspawned, hnext⟩ :=
    query_spec (fun t => t.subscriptionExists id topic) (p.system.world d)
  have hstep : (protocol env.toEnv service).step p (.verify i leaseSeconds d) =
      p.ask env.toEnv service m id leaseSeconds d := by
    simp only [protocol, Protocol.step, hm, hid]
  unfold Protocol.ask at hstep
  simp only [hform] at hstep
  rw [Service.verifyIntent] at hresult hworld
  cases h : (subscriptionExists id topic : Db (Task cs) Bool) (p.system.world d) with
  | mk r w =>
    have hw : (query (fun t => t.subscriptionExists id topic) (p.system.world d)).2 = w :=
      congrArg Prod.snd h
    rw [hw] at hstore hsaved hspawned hnext
    rw [h] at hstep
    have hend {answered : List (Message cs)} (hout : out.2.world = w)
        (hanswered : out.1 = .ok { body := challenge } ∧ answered = p.answered ++ [m] ∨
          out.1 ≠ .ok { body := challenge } ∧ answered = p.answered) :
        Exchanged p { p with answered } m challenge out := by
      rw [← hout] at hstore hsaved hspawned hnext
      exact exchanged_of_query hstore hsaved hspawned hnext hanswered
    cases r with
    | error e =>
      rw [Prog.bind_of_error h] at hresult hworld
      have hne : out.1 ≠ .ok { body := challenge } := by simp [hresult, Answer.result]
      exact ⟨_, Machine.exec_of_step hstep [], hend hworld (.inr ⟨hne, rfl⟩)⟩
    | ok found =>
      rw [Prog.bind_of_ok h] at hresult hworld
      cases found with
      | true =>
        refine ⟨_, Machine.exec_of_step hstep [], hend hworld (.inr ⟨?_, rfl⟩)⟩
        rw [hresult]
        simp [Answer.result, Answer.response, emptyResponse]
      | false =>
        exact ⟨_, Machine.exec_of_step hstep [], hend hworld (.inl ⟨hresult, rfl⟩)⟩

/-- In every reachable state, whoever sends which forms and whichever statements fail : a hub's
request about a form that was sent, taken whole, leaves and answers what steps of the protocol do
with nothing in between. -/
theorem exchange (hp : (protocol env.toEnv service).Reachable Machine.always p)
    (henv : env.verify = Verify.fromStr) (hcs : Encodes cs) {i : ℕ} (hm : p.sent[i]? = some m)
    (hne : m.form.callback.pathAndQuery.data ≠ []) (hquery : m.form.callback.query = none)
    (challenge : String) (leaseSeconds : UInt64) :
    ∃ uri, m.form.verificationUri challenge leaseSeconds = some uri ∧
      ∀ (now : UInt64) (headers : Headers) (body : B) (d : Draws) (s : Serving cs hmac B),
        s.poolError = none → s.world = p.system.world d →
        ∃ as q, (protocol env.toEnv service).exec p
            (.verify i leaseSeconds d :: as.map .system) = some q ∧
          CallSteps p.system.calls.length now as ∧
          Exchanged p q m challenge (service.call env now ⟨uri, headers, body⟩ s) := by
  have hlen : p.asking.length = p.system.calls.length := by
    simpa using (congrArg List.length (askedInv_of_reachable hp).calls).symm
  obtain ⟨uri, huri, hpath, hcall⟩ :=
    m.form.exists_verificationUri hmac B henv hcs hne hquery service challenge leaseSeconds
  refine ⟨uri, huri, fun now headers body d s hpool hworld => ?_⟩
  have hpath : service.idOf env.toEnv uri = service.idOf env.toEnv m.form.callback :=
    idOf_congr hpath
  cases hid : service.idOf env.toEnv m.form.callback with
  | none =>
    have hnone : service.idOf env.toEnv (⟨uri, headers, body⟩ : Request cs B).uri = none :=
      hpath.trans hid
    obtain ⟨status, hstatus, hcall⟩ := call_of_idOf_eq_none hnone now s
    have hstep : (protocol env.toEnv service).step p (.verify i leaseSeconds d) = some p := by
      simp only [protocol, Protocol.step, hm, hid]
    have hne : emptyResponse status ≠ { body := challenge } := fun h =>
      hstatus (congrArg Response.status h)
    rw [hcall]
    refine ⟨[], p, Machine.exec_of_step hstep [], .inl rfl, exchanged_of_query ?_ ?_ ?_ ?_
      (.inr ⟨by simpa using hne, rfl⟩)⟩
    all_goals
      rw [hworld]
      rfl
  | some id =>
    obtain ⟨hresult, hleft⟩ := verifyFor_spec env service now id
      (m.form.verification challenge leaseSeconds) hpool
    rw [call_of_idOf_eq_some (hpath.trans hid), hcall]
    rw [hworld] at hresult hleft
    cases hform : m.form with
    | subscribe callback topic secret =>
      rw [hform] at hresult hleft
      exact exchanged_of_subscribe hlen hm hid hform challenge leaseSeconds now d hresult hleft
    | unsubscribe callback topic =>
      rw [hform] at hresult hleft
      obtain ⟨q, hq, hend⟩ :=
        exchanged_of_unsubscribe hm hid hform challenge leaseSeconds now d hresult hleft
      exact ⟨[], q, hq, .inl rfl, hend⟩

end Exchange

/-- The form of the example, which has been sent. -/
def exampleMessage : Message .http :=
  exampleRecord.message

/-- A form that was sent, and not yet asked about. -/
theorem exchange_example :
    ∃ p : Protocol .http, p.sent = [exampleMessage] ∧
      ∃ uri, exampleMessage.form.verificationUri "1" 50 = some uri ∧
        ∀ (now : UInt64) (headers : Headers) (body : String) (d : Draws)
          (s : Serving .http exampleHmac String),
          s.poolError = none → s.world = p.system.world d →
          ∃ as q, (protocol exampleEnv exampleService).exec p
              (.verify 0 50 d :: as.map .system) = some q ∧
            CallSteps p.system.calls.length now as ∧
            Exchanged p q exampleMessage "1"
              (exampleService.call hubCallEnv now ⟨uri, headers, body⟩ s) := by
  have hinit : (protocol hubCallEnv.toEnv exampleService).Reachable Machine.always
      exampleProtocol := .init init_exampleProtocol
  obtain ⟨p, hp, hsent⟩ := hinit.exists_of_exec (confirmRun.take 1)
    (fun p => p.sent = [exampleMessage]) (Machine.guarded_always _ _) (by decide +kernel)
  replace hsent := of_decide_eq_true hsent
  have hget : p.sent[0]? = some exampleMessage := by rw [hsent, List.getElem?_cons_zero]
  exact ⟨p, hsent, exchange hp rfl (by unfold Encodes; decide) hget (by decide) (by decide) "1" 50⟩

end Websub
