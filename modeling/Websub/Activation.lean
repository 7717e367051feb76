import Websub.System

/-!
# Concurrent verifications

A call of `verify_intent` reads the inactive subscription outside of its transaction, so by
the time the transaction runs the row can be gone.

At most one row of a hub and topic is active (`unique_of_reachable`), as the transaction
deletes the others, as long as the id of a call is not given to a new row before its
transaction runs.

A call that has answered has left its row active, and a row that was active is deleted only
for another active one (`confirmed_kept`), as long as the transactions that run to their end
find the rows of their calls. Two calls for one topic delete the row of each other
(`not_leftActive_concurrent`).
-/

namespace Websub

open Machines Tables Programs Http

variable {cs : Charset} {env : Env} {service : Service cs}

/-! ## At most one active row of a hub and topic -/

/-- No two rows of one hub and topic are active. -/
def AtMostOneActive (t : Subscriptions) : Prop :=
  ∀ r ∈ t, ∀ r' ∈ t, r.hub = r'.hub → r.topic = r'.topic → r.expiresAt ≠ none →
    r'.expiresAt ≠ none → r = r'

/-- No row is added under the id of a call that has yet to run its transaction. -/
def DrawsFresh (env : Env) (service : Service cs) (s : System cs) (a : SystemAction cs) : Prop :=
  ∀ t ∈ s.step env service a, ∀ c ∈ s.calls, c.inFlight = true →
    s.store.free c.id = true → t.store.free c.id = true

/-- What every step keeps. -/
structure UniqueInv (s : System cs) : Prop where
  unique : AtMostOneActive s.store
  /-- The row of a call, if it is still there, has the hub and topic that were read. -/
  stale : ∀ c ∈ s.calls, c.inFlight = true → ∀ r ∈ s.store, r.id = c.id.toInt64 →
    r.hub = c.hub ∧ r.topic = c.topic

/-- The hub that is read is that of the row. -/
theorem of_getHubOfInactiveSubscription {t : Subscriptions} {id : UInt64} {hub topic : String}
    (h : t.getHubOfInactiveSubscription id topic = some hub) {r : Row} (hr : r ∈ t)
    (hid : r.id = id.toInt64) : r.hub = hub ∧ r.topic = topic ∧ r.expiresAt = none := by
  unfold Subscriptions.getHubOfInactiveSubscription at h
  rw [Option.map_eq_some_iff] at h
  obtain ⟨r', hr', rfl⟩ := h
  obtain ⟨hmem, hsel⟩ := Table.mem_select.1 (List.mem_of_mem_head? hr')
  simp only [Bool.and_eq_true, decide_eq_true_eq, Option.isNone_iff_eq_none] at hsel
  obtain rfl := Table.eq_of_key hr hmem (hid.trans hsel.1.1.symm)
  exact ⟨rfl, hsel.1.2, hsel.2⟩

/-- Of the rows an activation leaves, only its own has its hub and topic. -/
theorem id_of_not_isOld {id : UInt64} {hub topic : String} {r : Row}
    (h : r.isOld id hub topic = false) (hhub : r.hub = hub) (htopic : r.topic = topic) :
    r.id = id.toInt64 := by
  by_contra hne
  simp [Row.isOld, hhub, htopic, hne] at h

/-- An activation whose row has the hub and topic that were read leaves no two active rows of
one hub and topic. -/
theorem unique_of_activated {id : UInt64} {hub topic : String} {expiresAt : Int64}
    {t t' : Subscriptions} {tasks : List (Task cs)} (hu : AtMostOneActive t)
    (h : Activated env service id hub topic expiresAt t t' tasks)
    (hstale : ∀ r ∈ t, r.id = id.toInt64 → r.hub = hub ∧ r.topic = topic) :
    AtMostOneActive t' := by
  intro r hr r' hr' hhub htopic hact hact'
  obtain ⟨q, hq, hold, rfl⟩ := h.mem_iff.1 hr
  obtain ⟨q', hq', hold', rfl⟩ := h.mem_iff.1 hr'
  by_cases hid : q.id = id.toInt64 <;> by_cases hid' : q'.id = id.toInt64
  · rw [Table.eq_of_key hq hq' (hid.trans hid'.symm)]
  · obtain ⟨rfl, rfl⟩ := hstale q hq hid
    rw [Row.activate_of_eq hid, Row.activate_of_ne hid'] at hhub htopic
    exact absurd (id_of_not_isOld hold' hhub.symm htopic.symm) hid'
  · obtain ⟨rfl, rfl⟩ := hstale q' hq' hid'
    rw [Row.activate_of_ne hid, Row.activate_of_eq hid'] at hhub htopic
    exact absurd (id_of_not_isOld hold hhub htopic) hid
  · rw [Row.activate_of_ne hid, Row.activate_of_ne hid'] at *
    exact hu q hq q' hq' hhub htopic hact hact'

/-- Each step that adds no row of a waiting call keeps the rows unique, and the calls in step
with their rows. -/
theorem uniqueInv_step {s t : System cs} {a : SystemAction cs} (hi : UniqueInv s)
    (hok : DrawsFresh env service s a) (h : s.step env service a = some t) : UniqueInv t := by
  have hstored := (System.outcome_of_step h).stored
  -- a row keeps its hub and topic, and a new one is not of a call
  have hstale {c : Call} (hc : c ∈ s.calls) (hf : c.inFlight = true) {r : Row} (hr : r ∈ t.store)
      (hid : r.id = c.id.toInt64) : r.hub = c.hub ∧ r.topic = c.topic := by
    rcases hstored.origin hr with ⟨q, hq, hqid, hqhub, hqtopic, -⟩ | ⟨-, hfree, -⟩
    · rw [← hqhub, ← hqtopic]
      exact hi.stale c hc hf q hq (hqid.trans hid)
    · rw [hid, UInt64.toUInt64_toInt64] at hfree
      have hfree' := of_decide_eq_true (hok t h c hc hf hfree)
      exact absurd (hid ▸ Table.key_mem_keys hr) hfree'
  refine ⟨?_, fun c hc hf r hr hid => ?_⟩
  · cases hstored with
    | same store => exact store ▸ hi.unique
    | created rows drawn =>
      intro r hr r' hr' hhub htopic hact hact'
      rcases (Table.mem_iff_of_rows rows).1 hr with hr | rfl
      · rcases (Table.mem_iff_of_rows rows).1 hr' with hr' | rfl
        · exact hi.unique r hr r' hr' hhub htopic hact hact'
        · exact absurd rfl hact'
      · exact absurd rfl hact
    | deleted store =>
      intro r hr r' hr'
      rw [store] at hr hr'
      exact hi.unique r (Table.mem_delete.1 hr).1 r' (Table.mem_delete.1 hr').1
    | renewed action store =>
      intro r hr r' hr' hhub htopic hact hact'
      exact hi.unique r (store.mem_of_active hr hact) r' (store.mem_of_active hr' hact') hhub
        htopic hact hact'
    | activated call stage store =>
      refine unique_of_activated hi.unique store fun r hr hid => ?_
      exact hi.stale _ (List.mem_of_getElem? call) (by rw [Call.inFlight, stage]) r hr hid
  · cases (System.outcome_of_step h).called hc with
    | kept call => exact hstale call hf hr hid
    | read found store =>
      obtain ⟨hhub, htopic, -⟩ := of_getHubOfInactiveSubscription found (store ▸ hr) hid
      exact ⟨hhub, htopic⟩
    | hastened call stage =>
      exact hstale (List.mem_of_getElem? call) (by rw [Call.inFlight, stage]) hr hid
    | answered => cases hf
    | failed => cases hf

/-- No reachable store has two active rows of one hub and topic, in the runs that add no row
under the id of a call that has yet to run its transaction. -/
theorem unique_of_reachable {s : System cs}
    (hs : ((system env service).startingIn fun s => AtMostOneActive s.store).Reachable
      (DrawsFresh env service) s) : AtMostOneActive s.store := by
  have hi : UniqueInv s := by
    refine hs.invariant ?_ fun _ _ _ hi hok h => uniqueInv_step hi hok h
    rintro _ ⟨⟨store, rfl⟩, hu⟩
    exact ⟨hu, by simp⟩
  exact hi.unique

instance (t : Subscriptions) : Decidable (AtMostOneActive t) :=
  inferInstanceAs (Decidable (∀ r ∈ t.rows, ∀ r' ∈ t.rows, r.hub = r'.hub → r.topic = r'.topic →
    r.expiresAt ≠ none → r'.expiresAt ≠ none → r = r'))

instance (s : System cs) (a : SystemAction cs) : Decidable (DrawsFresh env service s a) :=
  inferInstanceAs (Decidable (∀ t ∈ s.step env service a, ∀ c ∈ s.calls, c.inFlight = true →
    s.store.free c.id = true → t.store.free c.id = true))

/-- The rows 1 and 2 of the example hub, of which the second is of `topic` and may be
active. -/
def exampleStore (topic : String) (expiresAt : Option Int64) : Subscriptions :=
  ⟨[{ exampleRow with expiresAt := none }, { exampleRow with id := 2, topic, expiresAt }],
    (by decide : [(1 : Int64), 2].Nodup)⟩

/-- The example service on a store. -/
def exampleSystem (store : Subscriptions) : System .http :=
  ⟨store, .new (firstTick exampleService.renewalMargin store), false, [], [], []⟩

/-- Nothing fails, and `rng` are the random ids. -/
def exampleDraws (rng : List UInt64) : Draws :=
  ⟨fun _ => none, rng, fun _ => Vector.replicate 24 0⟩

/-- The subscription 1 is verified, and takes the place of the subscription 2. -/
def verifyRun : List (SystemAction .http) :=
  [.verifyRead 1 "topic" 50 (exampleDraws []), .verifyHasten 0 90,
    .verifyCommit 0 (exampleDraws [])]

/-- A verification that takes the place of an active row. -/
theorem unique_of_reachable_verify :
    ∃ s : System .http, s.store.rows = [{ exampleRow with expiresAt := some 140 }] ∧
      AtMostOneActive s.store := by
  have hu : AtMostOneActive (exampleStore "topic" (some 100)) := by decide
  have hinit : ((system exampleEnv exampleService).startingIn fun s =>
      AtMostOneActive s.store).Reachable (DrawsFresh exampleEnv exampleService)
      (exampleSystem (exampleStore "topic" (some 100))) := .init ⟨⟨_, rfl⟩, hu⟩
  obtain ⟨s, hs, hrows⟩ := hinit.exists_of_exec verifyRun
    (fun s => s.store.rows = [{ exampleRow with expiresAt := some 140 }])
    (by decide +kernel) (by decide +kernel)
  exact ⟨s, of_decide_eq_true hrows, unique_of_reachable hs⟩

/-- The row of a call is deleted, and its id is drawn for another topic. -/
def reuseRun : List (SystemAction .http) :=
  [.verifyRead 1 "topic" 50 (exampleDraws []), .verifyHasten 0 90,
    .unsubscribe exampleService.callback 1 "http://example.com/hub" "topic" (exampleDraws []),
    .subscribe exampleService.callback "http://example.com/hub" "other" (exampleDraws [1]),
    .verifyCommit 0 (exampleDraws [])]

/-- The call activates the second row of the other topic. -/
theorem two_active_of_reuse :
    ∃ s, ((system exampleEnv exampleService).startingIn fun s => AtMostOneActive s.store).Reachable
      Machine.always s ∧ ¬ AtMostOneActive s.store := by
  have hu : AtMostOneActive (exampleStore "other" (some 100)) := by decide
  have hinit : ((system exampleEnv exampleService).startingIn fun s =>
      AtMostOneActive s.store).Reachable Machine.always
      (exampleSystem (exampleStore "other" (some 100))) := .init ⟨⟨_, rfl⟩, hu⟩
  obtain ⟨s, hs, htwo⟩ := hinit.exists_of_exec reuseRun (fun s => ¬ AtMostOneActive s.store)
    (Machine.guarded_always _ _) (by decide +kernel)
  exact ⟨s, hs, of_decide_eq_true htwo⟩

/-! ## What an answered call leaves -/

/-- If the call has answered the challenge, its transaction has left its row active. -/
def Call.LeftActive (c : Call) : Prop :=
  match c.stage with
  | .answered left => ∃ r ∈ left, r.id = c.id.toInt64 ∧ r.expiresAt ≠ none
  | _ => True

instance (c : Call) : Decidable c.LeftActive :=
  match h : c.stage with
  | .answered left =>
    have : Decidable (∃ r ∈ left.rows, r.id = c.id.toInt64 ∧ r.expiresAt ≠ none) := inferInstance
    decidable_of_iff (∃ r ∈ left.rows, r.id = c.id.toInt64 ∧ r.expiresAt ≠ none) (by
      unfold Call.LeftActive
      rw [h]
      rfl)
  | .read | .hastened _ | .failed => .isTrue (by rw [Call.LeftActive, h]; trivial)

/-- The ids of the active rows. -/
def activeIds (t : Subscriptions) : List Int64 :=
  (t.select fun r => r.expiresAt.isSome).map Row.id

/-- The ids of the rows that were active at some time, of those that are still there. -/
def confirmed (ids : List Int64) (_ : System cs) (_ : SystemAction cs) (t : System cs) :
    List Int64 :=
  (activeIds t.store ++ ids).filter fun id => id ∈ t.store.keys

/-- The system, with the ids of the confirmed rows. -/
def confirming (env : Env) (service : Service cs) :
    Machine (System cs × List Int64) (SystemAction cs) :=
  (system env service).withHistory (fun s => activeIds s.store) confirmed

/-- A transaction that runs to its end starts while the row of its call is there, and with
the hub and topic that were read, if it is going to delete a confirmed row. -/
def FindsRow (env : Env) (service : Service cs) (p : System cs × List Int64) :
    SystemAction cs → Prop
  | .verifyCommit i d => ∀ c ∈ p.1.calls[i]?,
    service.Activates env p.1.store d.faults c.id c.hub c.topic →
      ∃ r ∈ p.1.store, r.id = c.id.toInt64 ∧
        ((∃ q ∈ p.1.store, q.isOld c.id c.hub c.topic = true ∧ q.id ∈ p.2) →
          r.hub = c.hub ∧ r.topic = c.topic)
  | _ => True

instance (p : System cs × List Int64) : ∀ a, Decidable (FindsRow env service p a)
  | .verifyCommit i d => inferInstanceAs (Decidable (∀ c ∈ p.1.calls[i]?,
    service.Activates env p.1.store d.faults c.id c.hub c.topic →
      ∃ r ∈ p.1.store.rows, r.id = c.id.toInt64 ∧
        ((∃ q ∈ p.1.store.rows, q.isOld c.id c.hub c.topic = true ∧ q.id ∈ p.2) →
          r.hub = c.hub ∧ r.topic = c.topic)))
  | .scheduler _ | .tickRenew _ _ | .tickRead _ | .renew _ _ | .subscribe _ _ _ _
  | .unsubscribe _ _ _ _ _ | .verifyRead _ _ _ _ | .verifyHasten _ _ | .respond _ _ | .restart =>
    .isTrue trivial

/-- The row `r` is deleted by an explicit call, or another row of its hub and topic is
active. -/
def Replaced (a : SystemAction cs) (t : Subscriptions) (r : Row) : Prop :=
  (∃ callback id hub topic d, a = .unsubscribe callback id hub topic d ∧ r.id = id.toInt64) ∨
    ∃ r' ∈ t, r'.id ≠ r.id ∧ r'.hub = r.hub ∧ r'.topic = r.topic ∧ r'.expiresAt ≠ none

/-- A row that is there when its id is activated is active afterwards. -/
theorem activate_mem {id : UInt64} {hub topic : String} {expiresAt : Int64} {t t' : Subscriptions}
    {tasks : List (Task cs)} (h : Activated env service id hub topic expiresAt t t' tasks) {r : Row}
    (hr : r ∈ t) (hid : r.id = id.toInt64) : { r with expiresAt := some expiresAt } ∈ t' := by
  refine h.mem_iff.2 ⟨r, hr, ?_, (Row.activate_of_eq hid).symm⟩
  simp [Row.isOld, hid]

/-- A transaction that finds its row leaves it active. -/
theorem leftActive_step {p : System cs × List Int64} {t : System cs} {a : SystemAction cs}
    (hi : ∀ c ∈ p.1.calls, c.LeftActive) (hok : FindsRow env service p a)
    (h : p.1.step env service a = some t) : ∀ c ∈ t.calls, c.LeftActive := by
  intro c hc
  cases (System.outcome_of_step h).called hc with
  | kept call => exact hi c call
  | read => trivial
  | hastened => trivial
  | answered call stage store ends =>
    obtain ⟨r, hr, hid, -⟩ := hok _ call ends
    exact ⟨_, activate_mem store hr hid, hid, by simp⟩
  | failed => trivial

/-- A step deletes a confirmed row only where it replaces it. -/
theorem replaced_of_deleted {p : System cs × List Int64} {t : System cs} {a : SystemAction cs}
    (hok : FindsRow env service p a) (h : p.1.step env service a = some t) {r : Row}
    (hr : r ∈ p.1.store) (hconf : r.id ∈ p.2) (hgone : r.id ∉ t.store.keys) :
    Replaced a t.store r := by
  have hnot {r' : Row} (hr' : r' ∈ t.store) : r'.id ≠ r.id := fun hid =>
    hgone (hid ▸ Table.key_mem_keys hr')
  cases (System.outcome_of_step h).stored with
  | same store => exact absurd rfl (hnot (store ▸ hr))
  | created rows => exact absurd rfl (hnot ((Table.mem_iff_of_rows rows).2 (.inl hr)))
  | @deleted callback id hub topic d store =>
    by_cases hid : r.id = id.toInt64
    · exact .inl ⟨callback, id, hub, topic, d, rfl, hid⟩
    · have hmem : r ∈ t.store := by
        rw [store]
        exact Table.mem_delete.2 ⟨hr, by simpa using hid⟩
      exact absurd rfl (hnot hmem)
  | renewed action store => exact absurd (Row.deactivate_id _ _) (hnot (store.deactivate_mem hr))
  | @activated i d c expiresAt tasks call stage store answer ends =>
    cases hold : r.isOld c.id c.hub c.topic with
    | false =>
      have hmem := store.mem_iff.2 ⟨r, hr, hold, rfl⟩
      exact absurd (Row.activate_id _ _ _) (hnot hmem)
    | true =>
      obtain ⟨q, hq, hid, hsame⟩ := hok c call ends
      obtain ⟨hhub, htopic⟩ := hsame ⟨r, hr, hold, hconf⟩
      have hmem := activate_mem store hq hid
      simp only [Row.isOld, Bool.and_eq_true, decide_eq_true_eq] at hold
      exact .inr ⟨_, hmem, hnot hmem, hhub.trans hold.1.1.symm, htopic.trans hold.1.2.symm, by simp⟩

/-- In the runs whose transactions find the rows of their calls, an answered call has left its
row active, and a confirmed row that is not explicitly deleted is deleted only where another row
of its hub and topic is left active. -/
theorem confirmed_kept {p : System cs × List Int64}
    (hp : (confirming env service).Reachable (FindsRow env service) p) :
    (∀ c ∈ p.1.calls, c.LeftActive) ∧
      ∀ a q, FindsRow env service p a → (confirming env service).step p a = some q →
        ∀ r ∈ p.1.store, r.id ∈ p.2 → r.id ∉ q.1.store.keys → Replaced a q.1.store r := by
  refine ⟨?_, fun a q hok h r hr hconf hgone =>
    replaced_of_deleted hok (Machine.withHistory_step h).1 hr hconf hgone⟩
  refine hp.invariant ?_ fun p a q hi hok h => leftActive_step hi hok (Machine.withHistory_step h).1
  rintro ⟨_, _⟩ ⟨⟨store, rfl⟩, -⟩
  simp

/-- A verification that deletes the confirmed row 2. -/
theorem confirmed_kept_verify :
    ∃ p : System .http × List Int64, p.1.store.rows = [{ exampleRow with expiresAt := some 140 }] ∧
      (∀ c ∈ p.1.calls, c.LeftActive) ∧
        ∀ a q, FindsRow exampleEnv exampleService p a →
          (confirming exampleEnv exampleService).step p a = some q →
          ∀ r ∈ p.1.store, r.id ∈ p.2 → r.id ∉ q.1.store.keys → Replaced a q.1.store r := by
  have hinit : (confirming exampleEnv exampleService).Reachable
      (FindsRow exampleEnv exampleService)
      (exampleSystem (exampleStore "topic" (some 100)), [2]) := .init ⟨⟨_, rfl⟩, by decide⟩
  obtain ⟨p, hp, hrows⟩ := hinit.exists_of_exec verifyRun
    (fun p => p.1.store.rows = [{ exampleRow with expiresAt := some 140 }])
    (by decide +kernel) (by decide +kernel)
  exact ⟨p, of_decide_eq_true hrows, confirmed_kept hp⟩

/-- The subscriptions 1 and 2 of one topic are verified at the same time. -/
def concurrentRun : List (SystemAction .http) :=
  [.verifyRead 1 "topic" 50 (exampleDraws []), .verifyRead 2 "topic" 50 (exampleDraws []),
    .verifyHasten 0 90, .verifyHasten 1 90, .verifyCommit 0 (exampleDraws []),
    .verifyCommit 1 (exampleDraws [])]

/-- Both calls answer, each has deleted the row of the other, and none is left. -/
theorem not_leftActive_concurrent :
    ∃ s, (system exampleEnv exampleService).Reachable Machine.always s ∧
      ¬ (∀ c ∈ s.calls, c.LeftActive) ∧ s.store.rows = [] := by
  have hinit : (system exampleEnv exampleService).Reachable Machine.always
      (exampleSystem (exampleStore "topic" none)) := .init ⟨_, rfl⟩
  obtain ⟨s, hs, hlost⟩ := hinit.exists_of_exec concurrentRun
    (fun s => ¬ (∀ c ∈ s.calls, c.LeftActive) ∧ s.store.rows = [])
    (Machine.guarded_always _ _) (by decide +kernel)
  exact ⟨s, hs, of_decide_eq_true hlost⟩

end Websub
