import Websub.Activation

/-!
# The handover of a renewal

A renewal deactivates a subscription in the transaction that adds its successor, and only
active subscriptions are ever renewed. The successor becomes active only if its request
reaches the hub and the hub verifies it. A request that fails is logged and discarded.

`renewal_accounted` : a topic that was active at a hub and not explicitly unsubscribed from
has an active subscription, or one with a request or a verification that is outstanding, or
one whose request was lost. `orphaned_of_failure` is a run that loses the request, and
leaves neither of the first two.
-/

namespace Websub

open Machines Tables Programs Http

variable {cs : Charset} {env : Env} {service : Service cs}

/-! ## Topics -/

/-- The hub and topic of a row. -/
def Row.pair (r : Row) : String × String :=
  (r.hub, r.topic)

/-- The task is to subscribe to the row. -/
def Task.subscribesTo (task : Task cs) (r : Row) : Bool :=
  task.form.isSubscribe && task.id = r.id.toUInt64 && task.hub = r.hub &&
    task.form.topic = r.topic

/-- A row of the pair is active, or one of the tasks is to subscribe to it. -/
def Alive (t : Subscriptions) (tasks : List (Task cs)) (pair : String × String) : Prop :=
  ∃ r ∈ t, r.pair = pair ∧ (r.expiresAt ≠ none ∨ ∃ task ∈ tasks, task.subscribesTo r = true)

instance (t : Subscriptions) (tasks : List (Task cs)) (pair : String × String) :
    Decidable (Alive t tasks pair) :=
  inferInstanceAs (Decidable (∃ r ∈ t.rows, r.pair = pair ∧
    (r.expiresAt ≠ none ∨ ∃ task ∈ tasks, task.subscribesTo r = true)))

/-- The requests and the verifications that are outstanding. -/
def System.outstanding (s : System cs) : List (Task cs) :=
  s.requests ++ s.verifying

/-- The pairs of the active rows. -/
def activePairs (t : Subscriptions) : List (String × String) :=
  (t.select fun r => r.expiresAt.isSome).map Row.pair

/-- A pair with an active row is alive. -/
theorem alive_of_mem_activePairs {t : Subscriptions} {tasks : List (Task cs)}
    {pair : String × String} (h : pair ∈ activePairs t) : Alive t tasks pair := by
  obtain ⟨r, hr, rfl⟩ := List.mem_map.1 h
  obtain ⟨hr, hact⟩ := Table.mem_select.1 hr
  exact ⟨r, hr, rfl, .inl (Option.isSome_iff_ne_none.1 hact)⟩

/-- A pair stays alive with its rows and their tasks. -/
theorem Alive.mono {t t' : Subscriptions} {tasks tasks' : List (Task cs)} {pair : String × String}
    (h : Alive t tasks pair) (hrows : ∀ r ∈ t, r.pair = pair → r ∈ t')
    (htasks : ∀ task ∈ tasks, task ∈ tasks') : Alive t' tasks' pair := by
  obtain ⟨r, hr, hpair, h⟩ := h
  refine ⟨r, hrows r hr hpair, hpair, h.imp_right ?_⟩
  rintro ⟨task, htask, hsub⟩
  exact ⟨task, htasks task htask, hsub⟩

theorem Row.subscribesTo_deactivate (task : Task cs) (before : Int64) (r : Row) :
    task.subscribesTo (r.deactivate before) = task.subscribesTo r := by
  simp [Task.subscribesTo]

/-- The request for a row is to subscribe to it. -/
theorem SubscribesTo.subscribesTo {n : Row} {task : Task cs} (h : SubscribesTo env service n task) :
    task.subscribesTo n = true := by
  obtain ⟨c, -, rfl⟩ := h
  simp [Task.subscribesTo, Form.isSubscribe, Form.topic]

/-- A renewal hands over every row that it deactivates to one with a request. -/
theorem Renewed.alive {threshold : Int64} {rng : List UInt64} {t t' : Subscriptions}
    {tasks old all : List (Task cs)} {pair : String × String}
    (h : Renewed env service threshold rng t t' tasks) (hal : Alive t old pair)
    (hold : ∀ task ∈ old, task ∈ all) (htasks : ∀ task ∈ tasks, task ∈ all) :
    Alive t' all pair := by
  obtain ⟨r, hr, rfl, hact | ⟨task, htask, hsub⟩⟩ := hal
  · cases hexp : r.expiresBefore threshold with
    | true =>
      obtain ⟨n, hn, hhub, htopic, task, htask, hsub⟩ := h.exists_renewal hr hexp
      refine ⟨n, hn, ?_, .inr ⟨task, htasks task htask, hsub.subscribesTo⟩⟩
      unfold Row.pair
      rw [hhub, htopic]
    | false =>
      have hsame : r.deactivate threshold = r := if_neg (by simp [hexp])
      exact ⟨r, hsame ▸ h.deactivate_mem hr, rfl, .inl hact⟩
  · refine ⟨_, h.deactivate_mem hr, by simp [Row.pair], .inr ⟨task, hold task htask, ?_⟩⟩
    rw [Row.subscribesTo_deactivate]
    exact hsub

/-- An activation leaves a row of every pair that had one, if its row has the pair of the
rows it deletes. -/
theorem Activated.alive {id : UInt64} {hub topic : String} {expiresAt : Int64}
    {t t' : Subscriptions} {tasks old all : List (Task cs)} {pair : String × String}
    (h : Activated env service id hub topic expiresAt t t' tasks) (hal : Alive t old pair)
    (hrow : pair = (hub, topic) → ∃ r ∈ t, r.id = id.toInt64 ∧ r.pair = (hub, topic))
    (hold : ∀ task ∈ old, task ∈ all ∨ task.id = id) : Alive t' all pair := by
  obtain ⟨r, hr, rfl, hr'⟩ := hal
  cases hisOld : r.isOld id hub topic with
  | true =>
    simp only [Row.isOld, Bool.and_eq_true, decide_eq_true_eq] at hisOld
    have hpair : r.pair = (hub, topic) := by rw [Row.pair, hisOld.1.1, hisOld.1.2]
    obtain ⟨q, hq, hid, hqpair⟩ := hrow hpair
    exact ⟨_, activate_mem h hq hid, hqpair.trans hpair.symm, .inl (by simp)⟩
  | false =>
    by_cases hid : r.id = id.toInt64
    · exact ⟨_, activate_mem h hr hid, rfl, .inl (by simp)⟩
    · have hmem : r ∈ t' := h.mem_iff.2 ⟨r, hr, hisOld, (Row.activate_of_ne hid).symm⟩
      refine ⟨r, hmem, rfl, hr'.imp_right ?_⟩
      rintro ⟨task, htask, hsub⟩
      rcases hold task htask with hall | hne
      · exact ⟨task, hall, hsub⟩
      · simp only [Task.subscribesTo, Bool.and_eq_true, decide_eq_true_eq] at hsub
        refine absurd ?_ hid
        rw [← hne, hsub.1.1.2, Int64.toInt64_toUInt64]

/-! ## What has happened to them -/

/-- What a run remembers. -/
structure Past (cs : Charset) where
  /-- The pairs that were active, and have not been explicitly unsubscribed from since. -/
  held : List (String × String)
  /-- The tasks that ended without a challenge that was answered : the request failed, a
  restart dropped it, or the verification failed. -/
  lost : List (Task cs)

/-- The pairs of the rows that an explicit call deletes. -/
def unsubscribedPairs (s t : System cs) : SystemAction cs → List (String × String)
  | .unsubscribe _ _ _ _ _ => (s.store.select fun r => r ∉ t.store.rows).map Row.pair
  | _ => []

/-- The step answers the challenge of a verification. -/
def answersChallenge (t : System cs) : SystemAction cs → Bool
  | .verifyCommit i _ => t.calls[i]?.any fun c => c.stage = .answered t.store
  | _ => false

/-- What a run remembers after a step. -/
def Past.next (past : Past cs) (s : System cs) (a : SystemAction cs) (t : System cs) : Past cs where
  held := activePairs t.store ++ past.held.filter fun pair => pair ∉ unsubscribedPairs s t a
  lost := if answersChallenge t a then past.lost
    else past.lost ++ s.outstanding.filter fun task => task ∉ t.outstanding

/-- The system, with its past. -/
def remembering (env : Env) (service : Service cs) :
    Machine (System cs × Past cs) (SystemAction cs) :=
  (system env service).withHistory (fun s => ⟨activePairs s.store, []⟩) Past.next

/-- A transaction for a pair that was active, if it runs to its end, starts while the row of
its call is there, and of that pair. -/
def FindsHeldRow (env : Env) (service : Service cs) (p : System cs × Past cs) :
    SystemAction cs → Prop
  | .verifyCommit i d => ∀ c ∈ p.1.calls[i]?, (c.hub, c.topic) ∈ p.2.held →
    service.Activates env p.1.store d.faults c.id c.hub c.topic →
      ∃ r ∈ p.1.store, r.id = c.id.toInt64 ∧ r.pair = (c.hub, c.topic)
  | _ => True

instance (p : System cs × Past cs) : ∀ a, Decidable (FindsHeldRow env service p a)
  | .verifyCommit i d => inferInstanceAs (Decidable (∀ c ∈ p.1.calls[i]?,
    (c.hub, c.topic) ∈ p.2.held →
      service.Activates env p.1.store d.faults c.id c.hub c.topic →
        ∃ r ∈ p.1.store.rows, r.id = c.id.toInt64 ∧ r.pair = (c.hub, c.topic)))
  | .scheduler _ | .tickRenew _ _ | .tickRead _ | .renew _ _ | .subscribe _ _ _ _
  | .unsubscribe _ _ _ _ _ | .verifyRead _ _ _ _ | .verifyHasten _ _ | .respond _ _ | .restart =>
    .isTrue trivial

/-! ## Every step accounts for them -/

/-- Every pair that was active is, or has a row with a task that is outstanding or lost. -/
def Accounted (p : System cs × Past cs) : Prop :=
  ∀ pair ∈ p.2.held, Alive p.1.store (p.1.outstanding ++ p.2.lost) pair

/-- Where no task is forgotten, those that are no longer outstanding are lost. -/
theorem mem_outstanding_or_lost {s t : System cs} {past : Past cs} {a : SystemAction cs}
    (ha : answersChallenge t a = false) {task : Task cs} (h : task ∈ s.outstanding ++ past.lost) :
    task ∈ t.outstanding ++ (past.next s a t).lost := by
  unfold Past.next
  rw [ha]
  by_cases ht : task ∈ t.outstanding
  · exact List.mem_append_left _ ht
  · refine List.mem_append_right _ ?_
    rcases List.mem_append.1 h with h | h
    · exact List.mem_append_right _ (List.mem_filter.2 ⟨h, by simpa using ht⟩)
    · exact List.mem_append_left _ h

/-- Only a call whose transaction returns answers a challenge. -/
theorem Outcome.activated_of_answers {s t : System cs} {a : SystemAction cs}
    (h : Outcome env service s a t) (ha : answersChallenge t a = true) :
    ∃ i d c expiresAt tasks, a = .verifyCommit i d ∧ s.calls[i]? = some c ∧
      Activated env service c.id c.hub c.topic expiresAt s.store t.store tasks ∧
      service.Activates env s.store d.faults c.id c.hub c.topic ∧
      t.requests = s.requests ++ tasks ∧ t.verifying = s.verified c.id c.topic := by
  cases h with
  | verifyCommit call stage left ends => exact ⟨_, _, _, _, _, rfl, call, left, ends, rfl, rfl⟩
  | verifyCommitFail call =>
    have hi := (List.getElem?_eq_some_iff.1 call).1
    simp [answersChallenge, List.getElem?_set_self hi] at ha
  | _ => cases ha

/-- A step accounts for every pair that was active, if its transaction finds the row of its call. -/
theorem accounted_step {p q : System cs × Past cs} {a : SystemAction cs} (hi : Accounted p)
    (hok : FindsHeldRow env service p a) (h : (remembering env service).step p a = some q) :
    Accounted q := by
  obtain ⟨s, past⟩ := p
  obtain ⟨t, past'⟩ := q
  obtain ⟨hst, hpast⟩ := Machine.withHistory_step h
  obtain rfl : past' = past.next s a t := hpast
  have hout : Outcome env service s a t := System.outcome_of_step hst
  intro pair hpair
  rcases List.mem_append.1 hpair with hnew | hold
  · exact alive_of_mem_activePairs hnew
  obtain ⟨hheld, hkept⟩ := List.mem_filter.1 hold
  have hal := hi pair hheld
  cases ha : answersChallenge t a with
  | true =>
    obtain ⟨i, d, c, expiresAt, tasks, rfl, call, store, ends, requests, verifying⟩ :=
      hout.activated_of_answers ha
    refine store.alive hal (fun heq => hok c call (heq ▸ hheld) ends) fun task htask => ?_
    unfold Past.next
    rw [ha, System.outstanding, requests, verifying, System.verified]
    simp only [System.outstanding, List.mem_append, List.mem_filter] at htask ⊢
    grind
  | false =>
    have htasks {task : Task cs} (h : task ∈ s.outstanding ++ past.lost) :
        task ∈ t.outstanding ++ (past.next s a t).lost := mem_outstanding_or_lost ha h
    cases hout.stored with
    | same store => exact hal.mono (fun r hr _ => store ▸ hr) fun _ => htasks
    | created rows =>
      exact hal.mono (fun r hr _ => (Table.mem_iff_of_rows rows).2 (.inl hr)) fun _ => htasks
    | deleted store =>
      refine hal.mono (fun r hr hrp => ?_) fun _ => htasks
      by_contra hgone
      rw [decide_eq_true_iff] at hkept
      rw [Table.mem_def] at hgone
      exact hkept (List.mem_map.2 ⟨r, Table.mem_select.2 ⟨hr, by simpa using hgone⟩, hrp⟩)
    | renewed action store requests =>
      refine store.alive hal (fun _ => htasks) fun task htask => List.mem_append_left _ ?_
      unfold System.outstanding
      rw [requests]
      exact List.mem_append_left _ (List.mem_append_right _ htask)
    | activated call stage store answer =>
      have hi := (List.getElem?_eq_some_iff.1 call).1
      simp [answersChallenge, answer, List.getElem?_set_self hi] at ha

/-- In the runs whose transactions for pairs that were active find their rows, every such
pair that is not explicitly unsubscribed from is active, or has a row with a task that is
outstanding or lost. -/
theorem renewal_accounted {p : System cs × Past cs}
    (hp : (remembering env service).Reachable (FindsHeldRow env service) p) : Accounted p := by
  refine hp.invariant ?_ fun _ _ _ hi hok h => accounted_step hi hok h
  rintro ⟨_, _⟩ ⟨⟨store, rfl⟩, hpast⟩ pair hpair
  rw [hpast] at hpair
  exact alive_of_mem_activePairs hpair

/-- The subscription 2 is renewed by 7, whose request the hub answers with `success`. -/
def renewThenRespondRun (success : Bool) : List (SystemAction .http) :=
  [.scheduler .poll, .scheduler .register, .scheduler .load, .scheduler (.check 95),
    .tickRenew 95 (exampleDraws [7]), .tickRead (exampleDraws []), .respond 0 success]

/-- A renewal that the hub accepts, and verifies. -/
def renewThenVerifiedRun : List (SystemAction .http) :=
  renewThenRespondRun true ++ [.verifyRead 7 "other" 50 (exampleDraws []), .verifyHasten 0 96,
    .verifyCommit 0 (exampleDraws [])]

/-- A renewal that ends with a verification, and has lost nothing. -/
theorem renewal_accounted_verified :
    ∃ p : System .http × Past .http, ("http://example.com/hub", "other") ∈ p.2.held ∧
      p.2.lost = [] ∧ Accounted p := by
  have hinit : (remembering exampleEnv exampleService).Reachable
      (FindsHeldRow exampleEnv exampleService)
      (exampleSystem (exampleStore "other" (some 100)),
        ⟨activePairs (exampleStore "other" (some 100)), []⟩) := .init ⟨⟨_, rfl⟩, rfl⟩
  obtain ⟨p, hp, hpast⟩ := hinit.exists_of_exec renewThenVerifiedRun
    (fun p => ("http://example.com/hub", "other") ∈ p.2.held ∧ p.2.lost = [])
    (by decide +kernel) (by decide +kernel)
  obtain ⟨hheld, hlost⟩ := of_decide_eq_true hpast
  exact ⟨p, hheld, hlost, renewal_accounted hp⟩

/-- The hub answers the request for 7 with an error, and no row of the pair is left that is
active or has a task. -/
theorem orphaned_of_failure :
    ∃ p, (remembering exampleEnv exampleService).Reachable Machine.always p ∧
      ∃ pair ∈ p.2.held, ¬ Alive p.1.store p.1.outstanding pair := by
  have hinit : (remembering exampleEnv exampleService).Reachable Machine.always
      (exampleSystem (exampleStore "other" (some 100)),
        ⟨activePairs (exampleStore "other" (some 100)), []⟩) := .init ⟨⟨_, rfl⟩, rfl⟩
  obtain ⟨p, hp, horphaned⟩ := hinit.exists_of_exec (renewThenRespondRun false)
    (fun p => ∃ pair ∈ p.2.held, ¬ Alive p.1.store p.1.outstanding pair)
    (Machine.guarded_always _ _) (by decide +kernel)
  exact ⟨p, hp, of_decide_eq_true horphaned⟩

end Websub
