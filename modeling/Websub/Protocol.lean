import Websub.Handshake
import Websub.Sending

/-!
# The subscriber among its hubs

The system, with the forms that were sent to hubs and what the hubs do with them. A hub may ask
about any form it was sent, at any time and any number of times, and take note of each answer at
any later time, and again ; it keeps what it was answered with the challenge, and may drop it. So
requests and answers may be lost, late, repeated and in any order. Anyone may send a form to a hub.
Each request of a hub is a step here, and those of `verify_intent` after it.

What is assumed is that ids are not guessed (`Unguessed`). Then what a hub keeps for the callback
of a row is what the row says (`agreement`), nobody else can end or replace it (`record_kept`), and
content that is signed with the secret a hub keeps is delivered (`published`).
-/

namespace Websub

open Machines Tables Programs Http Base64 Streams Transducers

variable {cs : Charset}

/-! ## The protocol -/

/-- What a hub keeps of a subscription. -/
structure Record (cs : Charset) where
  hub : String
  callback : Uri cs
  topic : String
  secret : String
deriving DecidableEq

/-- The form that the hub was answered about. -/
def Record.message (r : Record cs) : Message cs :=
  ⟨r.hub, .subscribe r.callback r.topic r.secret⟩

/-- The subscriptions of a hub have a callback and a topic. -/
def Record.isOf (r : Record cs) (m : Message cs) : Bool :=
  r.hub = m.hub && r.callback = m.form.callback && r.topic = m.form.topic

/-- What hubs keep once one of them has taken note of an answer : a subscription replaces that of
its callback and topic. -/
def Message.confirm (m : Message cs) (records : List (Record cs)) : List (Record cs) :=
  let others := records.filter fun r => !r.isOf m
  match m.form with
  | .subscribe callback topic secret => others ++ [⟨m.hub, callback, topic, secret⟩]
  | .unsubscribe _ _ => others

/-- The subscriber and its hubs. -/
structure Protocol (cs : Charset) where
  system : System cs
  /-- The forms that were sent. -/
  sent : List (Message cs)
  /-- The forms that the calls of `verify_intent` are about. -/
  asking : List (Message cs)
  /-- The forms about which a hub was answered with its challenge. -/
  answered : List (Message cs)
  records : List (Record cs)
deriving DecidableEq

/-- A step. -/
inductive ProtocolAction (cs : Charset)
  /-- A step of the system. -/
  | system (a : SystemAction cs)
  /-- Someone sends a form to a hub. -/
  | forge (m : Message cs)
  /-- The `i`-th form is verified by its hub : the request to its callback arrives. -/
  | verify (i : ℕ) (leaseSeconds : UInt64) (d : Draws)
  /-- The hub takes note of the `i`-th answer. -/
  | confirm (i : ℕ)
  /-- A hub drops a subscription. -/
  | expire (i : ℕ)

namespace Protocol

variable (env : Env) (service : Service cs) (p : Protocol cs)

/-- The form about which a step of the system answers. -/
def answering (a : SystemAction cs) (t : System cs) : List (Message cs) :=
  match a with
  | .verifyCommit i _ => if answersChallenge t a then p.asking[i]?.toList else []
  | _ => []

/-- A hub asks about a form, of a callback that is for `id`. -/
def ask (m : Message cs) (id leaseSeconds : UInt64) (d : Draws) : Option (Protocol cs) :=
  match m.form with
  | .subscribe _ topic _ =>
    (p.system.step env service (.verifyRead id topic leaseSeconds d)).map fun t =>
      { p with
        system := t
        asking := if t.calls = p.system.calls then p.asking else p.asking ++ [m] }
  | .unsubscribe _ topic =>
    match (subscriptionExists id topic : Db (Task cs) Bool) (p.system.world d) with
    | (.ok false, _) => some { p with answered := p.answered ++ [m] }
    | _ => some p

/-- One step. -/
def step : ProtocolAction cs → Option (Protocol cs)
  | .system a =>
    if a.startsCall then none
    else (p.system.step env service a).map fun t =>
      { p with
        system := t
        sent := p.sent ++ (t.requests.drop p.system.requests.length).map Task.message
        asking := p.asking.take t.calls.length
        answered := p.answered ++ p.answering a t }
  | .forge m => some { p with sent := p.sent ++ [m] }
  | .verify i leaseSeconds d =>
    match p.sent[i]? with
    | none => none
    | some m =>
      match service.idOf env m.form.callback with
      | none => some p
      | some id => p.ask env service m id leaseSeconds d
  | .confirm i => p.answered[i]?.map fun m => { p with records := m.confirm p.records }
  | .expire i => some { p with records := p.records.eraseIdx i }

end Protocol

/-- The runs from the first start of the subscriber on. -/
def protocol (env : Env) (service : Service cs) : Machine (Protocol cs) (ProtocolAction cs) where
  init p := (system env service).init p.system ∧ p.system.store.rows = [] ∧ p.sent = [] ∧
    p.asking = [] ∧ p.answered = [] ∧ p.records = []
  step := Protocol.step env service

/-- The request to the callback is for the row. -/
def Message.For (env : Env) (service : Service cs) (m : Message cs) (r : Row) : Prop :=
  service.idOf env m.form.callback = some r.id.toUInt64

/-- The ids that a step draws are told from callbacks, and no form was sent with one of them, and
nobody else sends a form to subscribe with the id of a row. -/
def Unguessed (env : Env) (service : Service cs) (p : Protocol cs) : ProtocolAction cs → Prop
  | .system a => ∀ id ∈ a.drawn, p.system.store.free id = true →
    (makeCallback env.engine (a.base service) id).bind (service.idOf env) = some id ∧
      ∀ m ∈ p.sent, service.idOf env m.form.callback ≠ some id
  | .forge m => m.form.isSubscribe = true → ∀ r ∈ p.system.store, ¬ m.For env service r
  | _ => True

/-- What every step keeps, whoever sends which forms. -/
structure AskedInv (env : Env) (service : Service cs) (p : Protocol cs) : Prop where
  asking : ∀ m ∈ p.asking, m ∈ p.sent ∧ m.form.isSubscribe = true
  /-- The calls are for the rows of the forms that are asked about. -/
  calls : p.system.calls.map (fun c => some c.id) =
    p.asking.map fun m => service.idOf env m.form.callback
  answered : ∀ m ∈ p.answered, m ∈ p.sent
  records : ∀ r ∈ p.records, r.message ∈ p.answered

/-- What every step keeps as long as no id is guessed. -/
structure ProtocolInv (env : Env) (service : Service cs) (p : Protocol cs) : Prop
    extends AskedInv env service p where
  /-- The forms to subscribe with the id of a row are for what the row says. -/
  fits : ∀ m ∈ p.sent, ∀ r ∈ p.system.store, m.For env service r → m.Fits r
  /-- There is no row about whose end a hub was told. -/
  ended : ∀ m ∈ p.answered, m.form.isSubscribe = false → ∀ r ∈ p.system.store,
    m.For env service r → r.topic ≠ m.form.topic
  /-- An active row was verified. -/
  active : ∀ r ∈ p.system.store, r.expiresAt ≠ none → ∃ m ∈ p.answered,
    m.form.isSubscribe = true ∧ m.For env service r

/-! ## What a step does -/

section Step

variable {env : Env} {service : Service cs} {p q : Protocol cs}

/-- The state after a step, by what happens. -/
inductive ProtocolOutcome (env : Env) (service : Service cs) (p : Protocol cs) :
    ProtocolAction cs → Protocol cs → Prop
  | system {a : SystemAction cs} {t : System cs} (starts : a.startsCall = false)
      (step : p.system.step env service a = some t) :
      ProtocolOutcome env service p (.system a)
        { p with
          system := t
          sent := p.sent ++ (t.requests.drop p.system.requests.length).map Task.message
          asking := p.asking.take t.calls.length
          answered := p.answered ++ p.answering a t }
  | forged {m : Message cs} :
      ProtocolOutcome env service p (.forge m) { p with sent := p.sent ++ [m] }
  | started {i : ℕ} {leaseSeconds : UInt64} {d : Draws} {m : Message cs} {c : Call} {t : System cs}
      (sent : m ∈ p.sent) (subscribe : m.form.isSubscribe = true)
      (named : service.idOf env m.form.callback = some c.id)
      (calls : t.calls = p.system.calls ++ [c])
      (store : t.store = p.system.store) :
      ProtocolOutcome env service p (.verify i leaseSeconds d)
        { p with system := t, asking := p.asking ++ [m] }
  | refused {i : ℕ} {leaseSeconds : UInt64} {d : Draws} {t : System cs}
      (calls : t.calls = p.system.calls) (store : t.store = p.system.store) :
      ProtocolOutcome env service p (.verify i leaseSeconds d) { p with system := t }
  | ended {i : ℕ} {leaseSeconds : UInt64} {d : Draws} {m : Message cs} {id : UInt64}
      (sent : m ∈ p.sent) (named : service.idOf env m.form.callback = some id)
      (gone : p.system.store.subscriptionExists id m.form.topic = false) :
      ProtocolOutcome env service p (.verify i leaseSeconds d)
        { p with answered := p.answered ++ [m] }
  | confirmed {i : ℕ} {m : Message cs} (answered : m ∈ p.answered) :
      ProtocolOutcome env service p (.confirm i) { p with records := m.confirm p.records }
  | expired {i : ℕ} :
      ProtocolOutcome env service p (.expire i) { p with records := p.records.eraseIdx i }

/-- A hub that asks starts a call, is refused, or is told that there is no such row. -/
theorem Protocol.outcome_of_ask {m : Message cs} {id : UInt64} {i : ℕ} {leaseSeconds : UInt64}
    {d : Draws} (hm : m ∈ p.sent) (hid : service.idOf env m.form.callback = some id)
    (h : p.ask env service m id leaseSeconds d = some q) :
    ProtocolOutcome env service p (.verify i leaseSeconds d) q := by
  unfold Protocol.ask at h
  obtain ⟨hub, form⟩ := m
  cases form with
  | subscribe callback topic secret =>
    obtain ⟨t, ht, rfl⟩ := Option.map_eq_some_iff.1 h
    cases System.outcome_of_step ht with
    | verifyRead found =>
      rw [if_neg (by simp)]
      exact .started hm rfl hid rfl rfl
    | verifyReadFail =>
      rw [if_pos rfl]
      exact .refused rfl rfl
  | unsubscribe callback topic =>
    simp only at h
    split at h
    · rename_i w hr
      obtain rfl := Option.some_inj.1 h
      exact .ended hm hid (ok_of_statement hr).1.symm
    · obtain rfl := Option.some_inj.1 h
      exact .refused (t := p.system) rfl rfl

/-- Every step of the protocol ends in one of these ways. -/
theorem Protocol.outcome_of_step {a : ProtocolAction cs} (h : p.step env service a = some q) :
    ProtocolOutcome env service p a q := by
  cases a with
  | system a =>
    simp only [Protocol.step] at h
    split at h
    · cases h
    · rename_i ha
      obtain ⟨t, ht, rfl⟩ := Option.map_eq_some_iff.1 h
      exact .system (Bool.eq_false_iff.2 ha) ht
  | forge m =>
    obtain rfl := Option.some_inj.1 h
    exact .forged
  | verify i leaseSeconds d =>
    simp only [Protocol.step] at h
    split at h
    · cases h
    · rename_i m hm
      split at h
      · obtain rfl := Option.some_inj.1 h
        exact .refused (t := p.system) rfl rfl
      · rename_i id hid
        exact outcome_of_ask (List.mem_of_getElem? hm) hid h
  | confirm i =>
    obtain ⟨m, hm, rfl⟩ := Option.map_eq_some_iff.1 h
    exact .confirmed (List.mem_of_getElem? hm)
  | expire i =>
    obtain rfl := Option.some_inj.1 h
    exact .expired

/-- The records once an answer is noted are old ones, or that of the form. -/
theorem Message.mem_confirm_iff {m : Message cs} {records : List (Record cs)} {r : Record cs} :
    r ∈ m.confirm records ↔ r ∈ records ∧ r.isOf m = false ∨ r.message = m := by
  obtain ⟨hub, form⟩ := m
  obtain ⟨hub', callback', topic', secret'⟩ := r
  cases form with
  | subscribe callback topic secret => simp [Message.confirm, Record.message]
  | unsubscribe callback topic => simp [Message.confirm, Record.message]

/-! ## What every step keeps -/

/-- A callback is for a row by the id of the row alone. -/
theorem Row.Same.for_iff {r r' : Row} (h : r.Same r') {m : Message cs} :
    m.For env service r ↔ m.For env service r' := by
  unfold Message.For
  rw [h.1]

/-- A form fits a row by what the row was created with. -/
theorem Row.Same.fits {r r' : Row} (h : r.Same r') {m : Message cs} (hm : m.Fits r) :
    m.Fits r' := by
  obtain ⟨hub, form⟩ := m
  obtain ⟨-, hhub, htopic, hsecret⟩ := h
  cases form with
  | subscribe callback topic secret =>
    exact ⟨hhub.symm.trans hm.1, htopic.symm.trans hm.2.1, hsecret.symm.trans hm.2.2⟩
  | unsubscribe callback topic => trivial

/-- A form to unsubscribe says nothing about its row but the topic. -/
theorem Message.fits_of_unsubscribe {m : Message cs} (h : m.form.isSubscribe = false) (r : Row) :
    m.Fits r := by
  obtain ⟨hub, form⟩ := m
  cases form with
  | subscribe callback topic secret => cases h
  | unsubscribe callback topic => trivial

/-- Only a hub that asks is answered. -/
theorem Protocol.mem_asking_of_answering {a : SystemAction cs} {t : System cs} {m : Message cs}
    (h : m ∈ p.answering a t) : m ∈ p.asking := by
  unfold Protocol.answering at h
  split at h
  · split at h
    · exact List.mem_of_getElem? (Option.mem_toList.1 h)
    · cases h
  · cases h

/-- A form that a step of the system sends fits the rows it is for. -/
theorem Sends.fits {a : SystemAction cs} {s t : System cs} {task : Task cs}
    (h : Sends env service s t a task)
    (hok : ∀ id ∈ a.drawn, s.store.free id = true →
      (makeCallback env.engine (a.base service) id).bind (service.idOf env) = some id)
    {r : Row} (hr : r ∈ t.store) (hfor : task.message.For env service r) : task.message.Fits r := by
  cases h with
  | unsubscribe h => exact Message.fits_of_unsubscribe h r
  | subscribe drawn free callback row =>
    have hback := hok _ drawn free
    rw [callback, Option.bind_some] at hback
    have hid : task.id = r.id.toUInt64 := Option.some_inj.1 (hback.symm.trans hfor)
    exact row r hr (by rw [hid, Int64.toInt64_toUInt64])

/-- A call has the id of the form that is asked about. -/
theorem AskedInv.exists_asking (hi : AskedInv env service p) {i : ℕ} {c : Call}
    (hc : p.system.calls[i]? = some c) :
    ∃ m, p.asking[i]? = some m ∧ service.idOf env m.form.callback = some c.id := by
  have hget := congrArg (fun l => l[i]?) hi.calls
  simp only [List.getElem?_map, hc, Option.map_some] at hget
  exact Option.map_eq_some_iff.1 hget.symm

/-- A hub is answered about a form to subscribe that was sent. -/
theorem AskedInv.mem_sent_of_answering (hi : AskedInv env service p) {a : SystemAction cs}
    {t : System cs} {m : Message cs} (h : m ∈ p.answering a t) :
    m ∈ p.sent ∧ m.form.isSubscribe = true :=
  hi.asking m (Protocol.mem_asking_of_answering h)

/-- No step, and no form of anybody, gets the calls out of step with what was asked. -/
theorem AskedInv.step {a : ProtocolAction cs} (hi : AskedInv env service p)
    (h : p.step env service a = some q) : AskedInv env service q := by
  cases Protocol.outcome_of_step h with
  | @system a t starts step =>
    refine ⟨fun m hm => ?_, ?_, fun m hm => ?_, fun r hr => ?_⟩
    · obtain ⟨hsent, hsub⟩ := hi.asking m (List.mem_of_mem_take hm)
      exact ⟨List.mem_append_left _ hsent, hsub⟩
    · have hids := (System.outcome_of_step step).map_id_calls starts
      calc t.calls.map (fun c => some c.id) = (t.calls.map Call.id).map some := by
            rw [List.map_map]
            rfl
        _ = ((p.system.calls.map Call.id).map some).take t.calls.length := by
            rw [hids, List.map_take]
        _ = (p.asking.map fun m => service.idOf env m.form.callback).take t.calls.length := by
            rw [← hi.calls, List.map_map]
            rfl
        _ = (p.asking.take t.calls.length).map fun m => service.idOf env m.form.callback :=
            List.map_take.symm
    · rcases List.mem_append.1 hm with hm | hm
      · exact List.mem_append_left _ (hi.answered m hm)
      · exact List.mem_append_left _ (hi.mem_sent_of_answering hm).1
    · exact List.mem_append_left _ (hi.records r hr)
  | forged =>
    exact ⟨fun m hm => ⟨List.mem_append_left _ (hi.asking m hm).1, (hi.asking m hm).2⟩, hi.calls,
      fun m hm => List.mem_append_left _ (hi.answered m hm), hi.records⟩
  | started sent subscribe named calls =>
    refine ⟨fun m hm => ?_, ?_, hi.answered, hi.records⟩
    · rcases List.mem_append.1 hm with hm | hm
      · exact hi.asking m hm
      · rw [List.mem_singleton.1 hm]
        exact ⟨sent, subscribe⟩
    · rw [calls, List.map_append, List.map_append, hi.calls, List.map_singleton,
        List.map_singleton, named]
  | refused calls => exact ⟨hi.asking, calls ▸ hi.calls, hi.answered, hi.records⟩
  | ended sent =>
    refine ⟨hi.asking, hi.calls, fun m hm => ?_,
      fun r hr => List.mem_append_left _ (hi.records r hr)⟩
    rcases List.mem_append.1 hm with hm | hm
    · exact hi.answered m hm
    · rw [List.mem_singleton.1 hm]
      exact sent
  | confirmed answered =>
    refine ⟨hi.asking, hi.calls, hi.answered, fun r hr => ?_⟩
    rcases Message.mem_confirm_iff.1 hr with hr | rfl
    · exact hi.records r hr.1
    · exact answered
  | expired =>
    exact ⟨hi.asking, hi.calls, hi.answered, fun r hr => hi.records r (List.mem_of_mem_eraseIdx hr)⟩

/-- A step of the system keeps what its rows say in step with the forms. -/
theorem ProtocolInv.system {a : SystemAction cs} {t : System cs} (hi : ProtocolInv env service p)
    (hok : Unguessed env service p (.system a)) (h : p.system.step env service a = some t)
    (hasked : AskedInv env service
      { p with
        system := t
        sent := p.sent ++ (t.requests.drop p.system.requests.length).map Task.message
        asking := p.asking.take t.calls.length
        answered := p.answered ++ p.answering a t }) :
    ProtocolInv env service
      { p with
        system := t
        sent := p.sent ++ (t.requests.drop p.system.requests.length).map Task.message
        asking := p.asking.take t.calls.length
        answered := p.answered ++ p.answering a t } := by
  have hstored := (System.outcome_of_step h).stored
  -- no form that was sent is for a row that is new
  have hold {m : Message cs} (hm : m ∈ p.sent) {r' : Row} (hr : r' ∈ t.store)
      (hfor : m.For env service r') : ∃ r ∈ p.system.store, r.Same r' := by
    rcases hstored.origin hr with hsame | ⟨hdrawn, hfree, -⟩
    · exact hsame
    · exact absurd hfor ((hok _ hdrawn hfree).2 m hm)
  refine ⟨hasked, fun m hm r' hr hfor => ?_, fun m hm hend r' hr hfor => ?_, fun r' hr hact => ?_⟩
  · rcases List.mem_append.1 hm with hm | hm
    · obtain ⟨r, hmem, hsame⟩ := hold hm hr hfor
      exact hsame.fits (hi.fits m hm r hmem (hsame.for_iff.2 hfor))
    · obtain ⟨task, htask, rfl⟩ := List.mem_map.1 hm
      exact (System.sends_of_step h htask).fits (fun id hid hfree => (hok id hid hfree).1) hr hfor
  · rcases List.mem_append.1 hm with hm | hm
    · obtain ⟨r, hmem, hsame⟩ := hold (hi.answered m hm) hr hfor
      rw [← hsame.2.2.1]
      exact hi.ended m hm hend r hmem (hsame.for_iff.2 hfor)
    · cases (hi.mem_sent_of_answering hm).2.symm.trans hend
  · rcases hstored.active_or_answered hr hact with
      ⟨r, hmem, hid, hact'⟩ | ⟨i, d, c, rfl, hc, hid, hanswers⟩
    · obtain ⟨m, hm, hsub, hfor⟩ := hi.active r hmem hact'
      refine ⟨m, List.mem_append_left _ hm, hsub, ?_⟩
      unfold Message.For at hfor ⊢
      rwa [← hid]
    · obtain ⟨m, hm, hfor⟩ := hi.exists_asking hc
      have hmem : m ∈ p.answering (.verifyCommit i d) t := by
        simp [Protocol.answering, hanswers, hm]
      refine ⟨m, List.mem_append_right _ hmem, (hi.mem_sent_of_answering hmem).2, ?_⟩
      unfold Message.For
      rw [hfor, hid, UInt64.toUInt64_toInt64]

/-- As long as no id is guessed, every step keeps what hubs were told in step with the rows. -/
theorem ProtocolInv.step {a : ProtocolAction cs} (hi : ProtocolInv env service p)
    (hok : Unguessed env service p a) (h : p.step env service a = some q) :
    ProtocolInv env service q := by
  have hasked := hi.toAskedInv.step h
  cases Protocol.outcome_of_step h with
  | system starts step => exact hi.system hok step hasked
  | @forged m =>
    refine ⟨hasked, fun m' hm r hr hfor => ?_, hi.ended, hi.active⟩
    rcases List.mem_append.1 hm with hm | hm
    · exact hi.fits m' hm r hr hfor
    · obtain rfl := List.mem_singleton.1 hm
      cases hsub : m'.form.isSubscribe with
      | true => exact absurd hfor (hok hsub r hr)
      | false => exact Message.fits_of_unsubscribe hsub r
  | started _ _ _ _ store | refused _ store =>
    refine ⟨hasked, ?_, ?_, ?_⟩
    · rw [store]
      exact hi.fits
    · rw [store]
      exact hi.ended
    · rw [store]
      exact hi.active
  | @ended i leaseSeconds d m id sent named gone =>
    refine ⟨hasked, hi.fits, fun m' hm hend r hr hfor => ?_, fun r hr hact => ?_⟩
    · rcases List.mem_append.1 hm with hm | hm
      · exact hi.ended m' hm hend r hr hfor
      · obtain rfl := List.mem_singleton.1 hm
        intro htopic
        have hid : id = r.id.toUInt64 := Option.some_inj.1 (named.symm.trans hfor)
        have hexists : p.system.store.subscriptionExists id m'.form.topic = true :=
          subscriptionExists_iff.2 ⟨r, hr, by rw [hid, Int64.toInt64_toUInt64], htopic⟩
        cases hexists.symm.trans gone
    · obtain ⟨m', hm', hsub, hfor⟩ := hi.active r hr hact
      exact ⟨m', List.mem_append_left _ hm', hsub, hfor⟩
  | confirmed | expired => exact ⟨hasked, hi.fits, hi.ended, hi.active⟩

/-- Nothing is asked before the first start. -/
theorem askedInv_init (hp : (protocol env service).init p) : AskedInv env service p := by
  obtain ⟨system, _, _, _, _⟩ := p
  obtain ⟨⟨store, rfl⟩, -, rfl, rfl, rfl, rfl⟩ := hp
  exact ⟨by simp, rfl, by simp, by simp⟩

/-- In every run the calls are those of the forms that are asked about, and only forms that were
sent are answered and recorded. -/
theorem askedInv_of_reachable (hp : (protocol env service).Reachable Machine.always p) :
    AskedInv env service p := by
  refine hp.invariant ?_ fun _ _ _ hi _ h => hi.step h
  exact fun _ h => askedInv_init h

/-- In a run that guesses no id, the forms and answers fit the rows they are for. -/
theorem protocolInv_of_reachable
    (hp : (protocol env service).Reachable (Unguessed env service) p) :
    ProtocolInv env service p := by
  refine hp.invariant ?_ fun _ _ _ hi hok h => hi.step hok h
  intro p h
  have hasked := askedInv_init h
  obtain ⟨-, hrows, hsent, -, hanswered, -⟩ := h
  have hnone : ∀ r, r ∉ p.system.store := fun r hr => by
    rw [Table.mem_def, hrows] at hr
    cases hr
  exact ⟨hasked, by simp [hsent], by simp [hanswered], fun r hr => absurd hr (hnone r)⟩

/-- In every reachable state, what a hub keeps for the callback of a row is what the row says,
and an active row was verified by its own hub, for its own topic and secret. -/
theorem agreement (hp : (protocol env service).Reachable (Unguessed env service) p) :
    (∀ record ∈ p.records, ∀ r ∈ p.system.store, record.message.For env service r →
      r.hub = record.hub ∧ r.topic = record.topic ∧ r.secret = record.secret) ∧
    ∀ r ∈ p.system.store, r.expiresAt ≠ none → ∃ callback,
      ⟨r.hub, .subscribe callback r.topic r.secret⟩ ∈ p.answered ∧
        service.idOf env callback = some r.id.toUInt64 := by
  have hi := protocolInv_of_reachable hp
  refine ⟨fun record hrecord r hr hfor => ?_, fun r hr hact => ?_⟩
  · exact hi.fits _ (hi.answered _ (hi.records record hrecord)) r hr hfor
  · obtain ⟨⟨hub, form⟩, hm, hsub, hfor⟩ := hi.active r hr hact
    have hfits := hi.fits _ (hi.answered _ hm) r hr hfor
    cases form with
    | subscribe callback topic secret =>
      obtain ⟨rfl, rfl, rfl⟩ := hfits
      exact ⟨callback, hm, hfor⟩
    | unsubscribe callback topic => cases hsub

/-! ## A run -/

instance (p : Protocol cs) : ∀ a, Decidable (Unguessed env service p a)
  | .system a => List.decidableBAll (fun id => p.system.store.free id = true →
    (makeCallback env.engine (a.base service) id).bind (service.idOf env) = some id ∧
      ∀ m ∈ p.sent, service.idOf env m.form.callback ≠ some id) a.drawn
  | .forge m => inferInstanceAs (Decidable (m.form.isSubscribe = true →
    ∀ r ∈ p.system.store.rows, ¬ service.idOf env m.form.callback = some r.id.toUInt64))
  | .verify _ _ _ | .confirm _ | .expire _ => .isTrue trivial

/-- Nothing has happened yet. -/
def exampleProtocol : Protocol .http :=
  ⟨exampleSystem ⟨[], List.nodup_nil⟩, [], [], [], []⟩

/-- The hub verifies a subscription, and keeps it. -/
def confirmRun : List (ProtocolAction .http) :=
  [.system (.subscribe exampleService.callback "http://example.com/hub" "topic" (exampleDraws [1])),
    .verify 0 50 (exampleDraws []), .system (.verifyHasten 0 90),
    .system (.verifyCommit 0 (exampleDraws [])), .confirm 0]

/-- What it keeps. -/
def exampleRecord : Record .http :=
  ⟨"http://example.com/hub", firstCallback, "topic", "AAAAAAAAAAAAAAAAAAAAAAAAAAAAAAAA"⟩

/-- The row of the subscription. -/
def verifiedRow : Row :=
  ⟨1, "http://example.com/hub", "topic", "AAAAAAAAAAAAAAAAAAAAAAAAAAAAAAAA", some 140⟩

/-- The example has been started for the first time. -/
theorem init_exampleProtocol : (protocol exampleEnv exampleService).init exampleProtocol :=
  ⟨⟨_, rfl⟩, rfl, rfl, rfl, rfl, rfl⟩

theorem reachable_exampleProtocol : (protocol exampleEnv exampleService).Reachable
    (Unguessed exampleEnv exampleService) exampleProtocol :=
  .init init_exampleProtocol

/-- The run that confirms the subscription 1 guesses no id. -/
theorem exists_confirmRun :
    ∃ p, (protocol exampleEnv exampleService).Reachable (Unguessed exampleEnv exampleService) p ∧
      p.records = [exampleRecord] ∧ p.system.store.rows = [verifiedRow] := by
  obtain ⟨p, hp, h⟩ := reachable_exampleProtocol.exists_of_exec confirmRun
    (fun p => p.records = [exampleRecord] ∧ p.system.store.rows = [verifiedRow])
    (by decide +kernel) (by decide +kernel)
  exact ⟨p, hp, of_decide_eq_true h⟩

/-- The hub of the example keeps the subscription 1. -/
theorem agreement_example :
    ∃ p : Protocol .http, p.records = [exampleRecord] ∧ p.system.store.rows = [verifiedRow] ∧
      (∀ record ∈ p.records, ∀ r ∈ p.system.store, record.message.For exampleEnv exampleService r →
        r.hub = record.hub ∧ r.topic = record.topic ∧ r.secret = record.secret) ∧
      ∀ r ∈ p.system.store, r.expiresAt ≠ none → ∃ callback,
        ⟨r.hub, .subscribe callback r.topic r.secret⟩ ∈ p.answered ∧
          exampleService.idOf exampleEnv callback = some r.id.toUInt64 := by
  obtain ⟨p, hp, hrecords, hrows⟩ := exists_confirmRun
  exact ⟨p, hrecords, hrows, agreement hp⟩

/-! ## What a hub keeps -/

/-- The record is not dropped. -/
def Retains (record : Record cs) (p : Protocol cs) : ProtocolAction cs → Prop
  | .expire i => p.records[i]? ≠ some record
  | _ => True

instance (record : Record cs) (p : Protocol cs) : ∀ a, Decidable (Retains record p a)
  | .expire i => inferInstanceAs (Decidable (p.records[i]? ≠ some record))
  | .system _ | .forge _ | .verify _ _ _ | .confirm _ => .isTrue trivial

/-- The record is kept as long as its row is there. -/
structure KeptInv (env : Env) (service : Service cs) (record : Record cs) (p : Protocol cs) :
    Prop where
  inv : ProtocolInv env service p
  sent : record.message ∈ p.sent
  row : ∀ r ∈ p.system.store, record.message.For env service r → record ∈ p.records

/-- An answer about the callback of a row does not change what is kept for it. -/
theorem ProtocolInv.mem_confirm (hi : ProtocolInv env service p) {record : Record cs}
    (hsent : record.message ∈ p.sent) (hrecord : record ∈ p.records) {r : Row}
    (hr : r ∈ p.system.store) (hfor : record.message.For env service r) {m : Message cs}
    (hm : m ∈ p.answered) : record ∈ m.confirm p.records := by
  rw [Message.mem_confirm_iff]
  cases hof : record.isOf m with
  | false => exact .inl ⟨hrecord, rfl⟩
  | true =>
    refine .inr ?_
    obtain ⟨hub, callback, topic, secret⟩ := record
    obtain ⟨hub', form⟩ := m
    simp only [Record.isOf, Bool.and_eq_true, decide_eq_true_eq] at hof
    obtain ⟨⟨rfl, rfl⟩, rfl⟩ := hof
    have hrow := hi.fits _ hsent r hr hfor
    cases form with
    | subscribe callback topic' secret' =>
      obtain ⟨-, -, hsecret⟩ := hi.fits _ (hi.answered _ hm) r hr hfor
      rw [Record.message, ← hrow.2.2, hsecret]
      rfl
    | unsubscribe callback topic' => exact absurd hrow.2.1 (hi.ended _ hm rfl r hr hfor)

/-- The record is there after a step that does not drop it, as long as its row is. -/
theorem KeptInv.step {record : Record cs} {a : ProtocolAction cs}
    (hi : KeptInv env service record p) (hok : Unguessed env service p a ∧ Retains record p a)
    (h : p.step env service a = some q) : KeptInv env service record q := by
  refine ⟨hi.inv.step hok.1 h, ?_, ?_⟩
  · cases Protocol.outcome_of_step h with
    | system | forged => exact List.mem_append_left _ hi.sent
    | _ => exact hi.sent
  · intro r hr hfor
    cases Protocol.outcome_of_step h with
    | system starts step =>
      rcases (System.outcome_of_step step).stored.origin hr with
        ⟨r', hr', hsame⟩ | ⟨hdrawn, hfree, -⟩
      · exact hi.row r' hr' (hsame.for_iff.2 hfor)
      · exact absurd hfor ((hok.1 _ hdrawn hfree).2 _ hi.sent)
    | started sent subscribe named calls store => exact hi.row r (store ▸ hr) hfor
    | refused calls store => exact hi.row r (store ▸ hr) hfor
    | confirmed answered =>
      exact hi.inv.mem_confirm hi.sent (hi.row r hr hfor) hr hfor answered
    | @expired i =>
      have hmem := hi.row r hr hfor
      obtain ⟨j, hj⟩ := List.mem_iff_getElem?.1 hmem
      refine List.mem_eraseIdx_iff_getElem?.2 ⟨j, ?_, hj⟩
      rintro rfl
      exact hok.2 hj
    | _ => exact hi.row r hr hfor

/-- What a hub keeps for a row is there, and the same, until the hub drops it, as long as the row
is there : whoever asks the hub for what in between, and in which order answers arrive. -/
theorem record_kept (hp : (protocol env service).Reachable (Unguessed env service) p)
    {record : Record cs} (hrecord : record ∈ p.records) {as : List (ProtocolAction cs)}
    (h : (protocol env service).exec p as = some q)
    (hg : (protocol env service).Guarded
      (fun p a => Unguessed env service p a ∧ Retains record p a) p as)
    {r : Row} (hr : r ∈ q.system.store) (hfor : record.message.For env service r) :
    record ∈ q.records := by
  have hi := protocolInv_of_reachable hp
  have hkept : KeptInv env service record p :=
    ⟨hi, hi.answered _ (hi.records _ hrecord), fun _ _ _ => hrecord⟩
  exact (Machine.invariant_of_exec (fun _ _ _ hi hok h => hi.step hok h) hkept h hg).row r hr hfor

end Step

/-- Someone else asks the hub to end the subscription, and an old answer arrives again. -/
def forgedRun : List (ProtocolAction .http) :=
  [.forge ⟨"http://example.com/hub", .unsubscribe firstCallback "topic"⟩,
    .verify 1 0 (exampleDraws []), .confirm 0]

/-- The record of the example after a forged form to end it. -/
theorem record_kept_example :
    ∃ p q, (protocol exampleEnv exampleService).exec p forgedRun = some q ∧
      p.records = [exampleRecord] ∧ exampleRecord ∈ q.records := by
  obtain ⟨p, hp, h⟩ := reachable_exampleProtocol.exists_of_exec confirmRun
    (fun p => p.records = [exampleRecord] ∧
      (protocol exampleEnv exampleService).Guarded
        (fun p a => Unguessed exampleEnv exampleService p a ∧ Retains exampleRecord p a) p
        forgedRun ∧
      ((protocol exampleEnv exampleService).exec p forgedRun).any fun q =>
        decide (q.system.store.rows = [verifiedRow]))
    (by decide +kernel) (by decide +kernel)
  obtain ⟨hrecords, hg, hany⟩ := of_decide_eq_true h
  obtain ⟨q, hq, hrows⟩ := (Option.any_eq_true _ _).1 hany
  have hr : verifiedRow ∈ q.system.store := by
    rw [Table.mem_def, of_decide_eq_true hrows]
    exact List.mem_singleton_self _
  have hfor : exampleRecord.message.For exampleEnv exampleService verifiedRow := by
    unfold Message.For
    decide +kernel
  refine ⟨p, q, hq, hrecords, record_kept hp ?_ hq hg hr hfor⟩
  rw [hrecords]
  exact List.mem_singleton_self _

/-! ## Content -/

section Content

variable {service : Service cs} {id : UInt64} {callback : Uri cs}

/-- The callback of an id is for what is left of the id. -/
theorem idOf_of_makeCallback {env : Env} (hs : service.Addressable)
    (hc : makeCallback env.engine service.callback id = some callback) :
    service.idOf env callback = some (reducedId id) := by
  obtain ⟨-, -, htail⟩ := callback_spec hs hc
  unfold Service.idOf
  rw [callbackTail_eq_some_iff.2 htail, Option.bind_some]
  exact CallbackId.decode_encode env.engine id

/-- The ids that are told from their callbacks are those that survive their encoding. -/
theorem bind_idOf_iff {env : Env} (hs : service.Addressable) :
    (makeCallback env.engine service.callback id).bind (service.idOf env) = some id ↔
      CallbackId.Survives id := by
  obtain ⟨callback, hc, -⟩ := makeCallback_spec env.engine hs.hasPath id
  rw [hc, Option.bind_some, idOf_of_makeCallback hs hc, Option.some_inj, reducedId_eq_iff]

/-- Content that is sent to the callback of a row by a hub that keeps a subscription for it : one
update of the topic that the hub keeps is enqueued, and its content yields the body, and then the
end exactly if the last of the strongest signatures is the code of it under the secret that the
hub keeps. -/
theorem published {hmac : Hmac} {B : Type} {env : CallEnv} {p : Protocol cs}
    (hp : (protocol env.toEnv service).Reachable (Unguessed env.toEnv service) p)
    (hs : service.Addressable) {record : Record cs} (hrecord : record ∈ p.records) {r : Row}
    (hr : r ∈ p.system.store)
    (hc : makeCallback env.engine service.callback r.id.toUInt64 = some record.callback)
    (hsurvives : CallbackId.Survives r.id.toUInt64) {s : Serving cs hmac B}
    (hstore : s.world.store = p.system.store) (hpool : s.poolError = none)
    (hf : ∀ n, s.world.faults n = none) (halive : s.alive = true) {headers : Headers}
    {sigs : List Signature} (hheaders : headers.getAll hubSignature = sigs.map Signature.format)
    (henabled : ∀ sig ∈ sigs, sig.method.enabled env.features = true) {sig : Signature}
    (hsig : LastStrongest sigs sig) {β E : Type} {poll : B → PollData β E × B} (buf : Buf β)
    {body : B} {rs : List (BodyResult β E)} (hbody : Yields poll body rs) (now : UInt64) :
    ∃ content last s',
      service.call env now ⟨record.callback.originForm, headers, body⟩ s = (.ok {}, s') ∧
      s'.rx = s.rx ++ [⟨record.topic, headers, content⟩] ∧
      ((Content.polls poll buf).run content (List.replicate (rs.length + 1) ())).1 =
        rs.map (BodyResult.poll .body) ++ [last] ∧
      (last = .ready none ↔ (hmac sig.method).code record.secret.toUTF8.toList
        (rs.flatMap (BodyResult.bytes buf)) = sig.code) := by
  have hi := protocolInv_of_reachable hp
  have hfor : record.message.For env.toEnv service r := by
    have hid := idOf_of_makeCallback hs hc
    rwa [reducedId_eq_iff.2 hsurvives] at hid
  obtain ⟨-, htopic, hsecret⟩ : r.hub = record.hub ∧ r.topic = record.topic ∧
    r.secret = record.secret := hi.fits _ (hi.answered _ (hi.records _ hrecord)) r hr hfor
  obtain ⟨last, hpolls, hlast⟩ := polls_new hmac sig record.secret.toUTF8.toList buf hbody
  have hcall := call_signed hs hc hsurvives hpool hf halive (hstore ▸ hr)
    (Int64.toInt64_toUInt64 _).symm hheaders henabled hsig body now
  rw [htopic, hsecret] at hcall
  exact ⟨_, last, _, hcall, rfl, hpolls, hlast⟩

end Content

/-- A body of two buffers for the subscription, with a signature that is wrong. -/
theorem published_example :
    let rs : List (BodyResult (List (List UInt8)) ℕ) := [.data [[1, 2], [3]], .data [[4]]]
    let sig : Signature := ⟨.sha256, .replicate 32 0⟩
    ∃ p : Protocol .http, p.records = [exampleRecord] ∧
      let s : Serving .http exampleHmac (List (BodyResult (List (List UInt8)) ℕ)) :=
        serving exampleHmac _ p.system.store
      ∃ content last s', exampleService.call hubCallEnv 100
          ⟨exampleRecord.callback.originForm, [(hubSignature, sig.format)], rs⟩ s = (.ok {}, s') ∧
        s'.rx = s.rx ++ [⟨exampleRecord.topic, [(hubSignature, sig.format)], content⟩] ∧
        ((Content.polls pollList segments).run content (List.replicate (rs.length + 1) ())).1 =
          rs.map (BodyResult.poll .body) ++ [last] ∧
        (last = .ready none ↔ (exampleHmac sig.method).code exampleRecord.secret.toUTF8.toList
          (rs.flatMap (BodyResult.bytes segments)) = sig.code) := by
  intro rs sig
  obtain ⟨p, hp, hrecords, hrows⟩ := exists_confirmRun
  refine ⟨p, hrecords, ?_⟩
  have hrecord : exampleRecord ∈ p.records := by
    rw [hrecords]
    exact List.mem_singleton_self _
  have hr : verifiedRow ∈ p.system.store := by
    rw [Table.mem_def, hrows]
    exact List.mem_singleton_self _
  have hc : makeCallback hubCallEnv.engine exampleService.callback verifiedRow.id.toUInt64 =
      some exampleRecord.callback := by decide
  have hheaders : Headers.getAll [(hubSignature, sig.format)] hubSignature =
      [sig].map Signature.format := rfl
  have hp' : (protocol hubCallEnv.toEnv exampleService).Reachable
      (Unguessed hubCallEnv.toEnv exampleService) p := hp
  have hlast : LastStrongest [sig] sig :=
    ⟨[], [], rfl, List.forall_mem_nil _, List.forall_mem_nil _⟩
  exact published hp' addressable_exampleService hrecord hr hc (by decide)
    (s := serving exampleHmac (List (BodyResult (List (List UInt8)) ℕ)) p.system.store) rfl rfl
    (fun _ => rfl) rfl hheaders (List.forall_mem_singleton.2 rfl) hlast segments
    (yields_pollList rs) 100

end Websub
