import Websub.Commit
import Websub.Refresh

/-!
# What a verification does

`verify_intent` without interference and without errors. The query decides which columns are
looked up : a subscription is confirmed if the row is there with that topic and inactive, an
unsubscription if no row with that topic is there. `Echoes` says when, and `Confirmed` what a
confirmed subscription does to every row, to the requests and to the next tick
(`verified`).

The deletions go over ids that were listed before, the update is by id, and both name rows
by their key. So a table whose keys are distinct has one row that becomes active, and loses
those of the same hub and topic.
-/

namespace Websub

open Tables Programs Http

variable {cs : Charset} {env : Env} {service : Service cs}

/-! ## The look-ups -/

/-- A subscription is found for confirmation if its row has the topic and is inactive. -/
theorem getHubOfInactiveSubscription_eq_some_iff {t : Subscriptions} {id : UInt64}
    {topic hub : String} : t.getHubOfInactiveSubscription id topic = some hub ↔
      ∃ r ∈ t, r.id = id.toInt64 ∧ r.topic = topic ∧ r.expiresAt = none ∧ r.hub = hub := by
  have hkey : ∀ r : Row, (r.id = id.toInt64 && r.topic = topic && r.expiresAt.isNone) = true →
      r.id = id.toInt64 := by
    intro r h
    simp only [Bool.and_eq_true, decide_eq_true_iff] at h
    exact h.1.1
  unfold Subscriptions.getHubOfInactiveSubscription
  rw [Option.map_eq_some_iff]
  refine exists_congr fun r => ?_
  rw [Table.head?_select_eq_some_iff hkey]
  simp only [Bool.and_eq_true, decide_eq_true_iff, Option.isNone_iff_eq_none, and_assoc]

/-- A subscription exists if its row has the topic. -/
theorem subscriptionExists_iff {t : Subscriptions} {id : UInt64} {topic : String} :
    t.subscriptionExists id topic = true ↔ ∃ r ∈ t, r.id = id.toInt64 ∧ r.topic = topic := by
  unfold Subscriptions.subscriptionExists
  rw [decide_eq_true_iff, Ne, List.eq_nil_iff_forall_not_mem]
  push Not
  simp

/-! ## When the transaction returns -/

namespace Service

/-- The transaction returns where nothing fails and the hub is a URI. -/
theorem exists_activate (hpath : service.callback.hasPath = true) (id : UInt64) {hub : String}
    (topic : String) (expiresAt : Int64) (huri : env.isUri hub = true) {w : World (Task cs)}
    (hf : ∀ n, w.faults n = none) :
    ∃ w', service.activate env id hub topic expiresAt w = (.ok (), w') := by
  have hreturns : Returns (service.activate env id hub topic expiresAt) w :=
    (returns_activate env service).2 ⟨fun n _ => hf _, fun _ => ⟨hpath, huri⟩⟩
  obtain ⟨⟨⟩, w', hw'⟩ := hreturns
  exact ⟨w', hw'⟩

/-- A subscription that is found inactive is confirmed where nothing fails, the hub is a URI
and the margin is at most the expiry. -/
theorem exists_verifySubscription (hpath : service.callback.hasPath = true) {now : UInt64}
    (id : UInt64) {hub : String} (topic challenge : String) {leaseSeconds : UInt64}
    (huri : env.isUri hub = true)
    (hle : service.renewalMargin ≤ (expiryOf now leaseSeconds).toUInt64) {w : World (Task cs)}
    (hf : ∀ n, w.faults n = none) :
    ∃ w' tasks,
      service.verifySubscription env now id hub topic challenge leaseSeconds w =
        (.ok (.challenge challenge), w') ∧
      w'.spawned = w.spawned ++ tasks ∧
      w'.nextTick = fetchMin w.nextTick (refreshAt service.renewalMargin
        (expiryOf now leaseSeconds)) ∧
      Activated env service id hub topic (expiryOf now leaseSeconds) w.store w'.store tasks := by
  obtain ⟨tick, htick, -⟩ := (exists_refreshTime_iff env service).2 hle
  have hat := hastened_eq htick (.inr fun e he => by
    obtain rfl := Option.some_inj.1 ((u64TryFrom_expiryOf now leaseSeconds).symm.trans he)
    exact hle)
  obtain ⟨w', hw'⟩ := exists_activate hpath id topic (expiryOf now leaseSeconds) huri
    (w := { w with nextTick := fetchMin w.nextTick tick }) hf
  obtain ⟨tasks, hspawned, hnext, hact⟩ := activated_of_ok hw'
  refine ⟨w', tasks, ?_, hspawned, hat ▸ hnext, hact⟩
  unfold verifySubscription
  rw [htick]
  exact (Prog.bind_of_ok rfl _).trans (Prog.bind_of_ok hw' _)

end Service
/-! ## The transition -/

/-- The query is answered with the challenge. -/
def Echoes (t : Subscriptions) (id : UInt64) (challenge : String) : Option Verify → Prop
  | some (.subscribe topic c _) =>
    c = challenge ∧ ∃ r ∈ t, r.id = id.toInt64 ∧ r.topic = topic ∧ r.expiresAt = none
  | some (.unsubscribe topic c) =>
    c = challenge ∧ ∀ r ∈ t, ¬(r.id = id.toInt64 ∧ r.topic = topic)
  | none => False

/-- Store, next tick and requests are as they were. -/
def Untouched (w w' : World (Task cs)) : Prop :=
  w'.store = w.store ∧ w'.nextTick = w.nextTick ∧ w'.spawned = w.spawned

/-- What has become of the store, and what was spawned, when the inactive subscription `r`
was confirmed. -/
structure Confirmed (env : Env) (service : Service cs) (now leaseSeconds : UInt64) (r : Row)
    (w w' : World (Task cs)) (expiresAt : Int64) (tasks : List (Task cs)) : Prop where
  expiry : expiresAt.toInt = min (now.toNat + leaseSeconds.toNat : ℤ) Int64.maxValue.toInt
  /-- The row has that expiry, the others of its hub and topic are gone, the remaining rows
  are as they were, and there are no more. -/
  rows : ∀ r', r' ∈ w'.store ↔ r' = { r with expiresAt := some expiresAt } ∨
    r' ∈ w.store ∧ r'.id ≠ r.id ∧ ¬(r'.hub = r.hub ∧ r'.topic = r.topic)
  /-- Each of the rows that are gone has one request, that names its id. -/
  requests : List.Forall₂
    (fun s task => UnsubscribesFrom env service r.hub r.topic s.id.toUInt64 task)
    (w.store.select fun s => s.hub = r.hub && s.topic = r.topic && s.id ≠ r.id) tasks
  spawned : w'.spawned = w.spawned ++ tasks
  nextTick : w'.nextTick.toNat =
    min w.nextTick.toNat (refreshSeconds service.renewalMargin expiresAt)

/-- What `verify_intent` answers and does. -/
structure Verified (env : Env) (service : Service cs) (now id : UInt64) (q : Option Verify)
    (w : World (Task cs)) (answer : Except Stop Answer) (w' : World (Task cs)) : Prop where
  echoes_iff : ∀ challenge, answer = .ok (.challenge challenge) ↔ Echoes w.store id challenge q
  notFound : (∀ challenge, ¬Echoes w.store id challenge q) →
    answer = .ok .notFound ∧ Untouched w w'
  subscribe : ∀ topic challenge leaseSeconds, q = some (.subscribe topic challenge leaseSeconds) →
    ∀ r ∈ w.store, r.id = id.toInt64 → r.topic = topic → r.expiresAt = none →
      ∃ expiresAt tasks, Confirmed env service now leaseSeconds r w w' expiresAt tasks
  unsubscribe : ∀ topic challenge, q = some (.unsubscribe topic challenge) → Untouched w w'

/-- A query touches nothing. -/
theorem untouched_queried (w : World (Task cs)) : Untouched w w.queried :=
  ⟨rfl, rfl, rfl⟩

/-- The rows after an activation of the row `r`. -/
theorem Activated.mem_iff_of_mem {id : UInt64} {expiresAt : Int64} {t t' : Subscriptions}
    {tasks : List (Task cs)} {r : Row} (hr : r ∈ t) (hid : r.id = id.toInt64)
    (h : Activated env service id r.hub r.topic expiresAt t t' tasks) (r' : Row) :
    r' ∈ t' ↔ r' = { r with expiresAt := some expiresAt } ∨
      r' ∈ t ∧ r'.id ≠ r.id ∧ ¬(r'.hub = r.hub ∧ r'.topic = r.topic) := by
  rw [h.mem_iff]
  constructor
  · rintro ⟨s, hs, hold, rfl⟩
    by_cases hsid : s.id = id.toInt64
    · obtain rfl := Table.eq_of_key hs hr (hsid.trans hid.symm)
      exact .inl (Row.activate_of_eq hsid)
    · rw [Row.activate_of_ne hsid]
      refine .inr ⟨hs, hid ▸ hsid, fun hsame => hsid ?_⟩
      exact id_of_not_isOld hold hsame.1 hsame.2
  · rintro (rfl | ⟨hr', hne, hnot⟩)
    · exact ⟨r, hr, by simp [Row.isOld, hid], (Row.activate_of_eq hid).symm⟩
    · refine ⟨r', hr', ?_, (Row.activate_of_ne (hid ▸ hne)).symm⟩
      unfold Row.isOld
      rw [Bool.and_eq_false_iff]
      left
      simpa using hnot

/-- An inactive row that is confirmed. -/
theorem confirmed_of_activated {now id leaseSeconds : UInt64} {w w' : World (Task cs)}
    {tasks : List (Task cs)} {r : Row} (hr : r ∈ w.store) (hid : r.id = id.toInt64)
    (hspawned : w'.spawned = w.spawned ++ tasks)
    (hnext : w'.nextTick = fetchMin w.nextTick (refreshAt service.renewalMargin
      (expiryOf now leaseSeconds)))
    (hact : Activated env service id r.hub r.topic (expiryOf now leaseSeconds) w.store w'.store
      tasks) :
    Confirmed env service now leaseSeconds r w w' (expiryOf now leaseSeconds) tasks := by
  have hmax : Int64.maxValue.toInt = 2 ^ 63 - 1 := rfl
  refine ⟨?_, hact.mem_iff_of_mem hr hid, ?_, hspawned, ?_⟩
  · rw [toInt_expiryOf, hmax]
    omega
  · have hrequests := hact.2
    unfold Subscriptions.getOldSubscriptions at hrequests
    rw [← hid, List.forall₂_map_left_iff] at hrequests
    exact hrequests
  · rw [hnext, toNat_fetchMin, toNat_refreshAt, refreshSeconds_eq]

section Cases

variable {w : World (Task cs)} {now id : UInt64}

/-- A query that does not parse is refused, and touches nothing. -/
theorem verified_none : Verified env service now id none w
    (service.verifyIntent env now id none w).1 (service.verifyIntent env now id none w).2 where
  echoes_iff challenge := by simp [Service.verifyIntent, Echoes]
  notFound _ := ⟨rfl, rfl, rfl, rfl⟩
  subscribe _ _ _ h := nomatch h
  unsubscribe _ _ h := nomatch h

/-- What a verification of an unsubscription does where nothing fails. -/
theorem verified_unsubscribe (hf : ∀ n, w.faults n = none) (topic challenge : String) :
    Verified env service now id (some (.unsubscribe topic challenge)) w
      (service.verifyIntent env now id (some (.unsubscribe topic challenge)) w).1
      (service.verifyIntent env now id (some (.unsubscribe topic challenge)) w).2 := by
  have hrun : service.verifyIntent env now id (some (.unsubscribe topic challenge)) w =
      (.ok (if w.store.subscriptionExists id topic then .notFound else .challenge challenge),
        w.queried) := Prog.bind_of_ok (query_of_none _ (hf _)) _
  have hiff (c : String) : Echoes w.store id c (some (.unsubscribe topic challenge)) ↔
      challenge = c ∧ ¬w.store.subscriptionExists id topic = true := by
    rw [subscriptionExists_iff, Echoes]
    push Not
    rfl
  rw [hrun]
  refine ⟨fun c => ?_, fun hnot => ?_, fun _ _ _ h => ?_, fun _ _ _ => untouched_queried w⟩
  · rw [hiff]
    cases w.store.subscriptionExists id topic <;> simp
  · have hfound := hnot challenge
    rw [hiff, not_and, not_not] at hfound
    exact ⟨by rw [if_pos (hfound rfl)], untouched_queried w⟩
  · cases Option.some_inj.1 h

/-- What a verification of a subscription does where nothing fails. -/
theorem verified_subscribe (hf : ∀ n, w.faults n = none)
    (hpath : service.callback.hasPath = true) (huri : ∀ r ∈ w.store, env.isUri r.hub = true)
    (topic challenge : String) {leaseSeconds : UInt64}
    (hle : service.renewalMargin ≤ (expiryOf now leaseSeconds).toUInt64) :
    Verified env service now id (some (.subscribe topic challenge leaseSeconds)) w
      (service.verifyIntent env now id (some (.subscribe topic challenge leaseSeconds)) w).1
      (service.verifyIntent env now id (some (.subscribe topic challenge leaseSeconds)) w).2 := by
  have hread : (getHubOfInactiveSubscription id topic : Db (Task cs) _) w =
      (.ok (w.store.getHubOfInactiveSubscription id topic), w.queried) := query_of_none _ (hf _)
  cases hfound : w.store.getHubOfInactiveSubscription id topic with
  | none =>
    have hrun : service.verifyIntent env now id (some (.subscribe topic challenge leaseSeconds)) w =
        (.ok .notFound, w.queried) := by
      rw [Service.verifyIntent, Prog.bind_of_ok hread, hfound]
      rfl
    have hnone : ∀ r ∈ w.store, r.id = id.toInt64 → r.topic = topic → r.expiresAt ≠ none :=
      fun r hr hid htopic hnull => by
        have hsome := getHubOfInactiveSubscription_eq_some_iff.2
          ⟨r, hr, hid, htopic, hnull, rfl⟩
        rw [hfound] at hsome
        cases hsome
    rw [hrun]
    refine ⟨fun c => ⟨fun h => ?_, ?_⟩, fun _ => ⟨rfl, untouched_queried w⟩, ?_, fun _ _ h => ?_⟩
    · cases Except.ok.inj h
    · rintro ⟨-, r, hr, hid, htopic, hnull⟩
      exact absurd hnull (hnone r hr hid htopic)
    · rintro _ _ _ ⟨⟩ r hr hid htopic hnull
      exact absurd hnull (hnone r hr hid htopic)
    · cases Option.some_inj.1 h
  | some hub =>
    obtain ⟨r, hr, hid, htopic, hnull, rfl⟩ := getHubOfInactiveSubscription_eq_some_iff.1 hfound
    obtain ⟨w', tasks, hw', hspawned, hnext, hact⟩ := Service.exists_verifySubscription hpath
      id topic challenge (huri r hr) hle (w := w.queried) hf
    have hrun : service.verifyIntent env now id (some (.subscribe topic challenge leaseSeconds)) w =
        (.ok (.challenge challenge), w') := by
      rw [Service.verifyIntent, Prog.bind_of_ok hread, hfound]
      exact hw'
    subst htopic
    rw [hrun]
    refine ⟨fun c => ?_, fun hnot => ?_, ?_, fun _ _ h => ?_⟩
    · have hrow : ∃ s ∈ w.store, s.id = id.toInt64 ∧ s.topic = r.topic ∧ s.expiresAt = none :=
        ⟨r, hr, hid, rfl, hnull⟩
      simp [Echoes, hrow]
    · exact absurd ⟨rfl, r, hr, hid, rfl, hnull⟩ (hnot challenge)
    · rintro _ _ _ ⟨⟩ s hs hsid hstopic -
      obtain rfl := Table.eq_of_key hs hr (hsid.trans hid.symm)
      exact ⟨_, tasks, confirmed_of_activated hs hsid hspawned hnext hact⟩
    · cases Option.some_inj.1 h

end Cases

/-- What `verify_intent` answers and does, for every query : where no statement fails, the
callback has a path, the hubs that are stored are URIs, and the margin is at most the
expiry. -/
theorem verified {w : World (Task cs)} (now id : UInt64) (q : Option Verify)
    (hf : ∀ n, w.faults n = none) (hpath : service.callback.hasPath = true)
    (huri : ∀ r ∈ w.store, env.isUri r.hub = true)
    (hle : ∀ topic challenge leaseSeconds, q = some (.subscribe topic challenge leaseSeconds) →
      service.renewalMargin.toNat ≤ min (now.toNat + leaseSeconds.toNat) (2 ^ 63 - 1)) :
    Verified env service now id q w (service.verifyIntent env now id q w).1
      (service.verifyIntent env now id q w).2 := by
  match q with
  | none => exact verified_none
  | some (.unsubscribe topic challenge) => exact verified_unsubscribe hf topic challenge
  | some (.subscribe topic challenge leaseSeconds) =>
    refine verified_subscribe hf hpath huri topic challenge ?_
    rw [UInt64.le_iff_toNat_le, toNat_toUInt64_expiryOf]
    exact hle _ _ _ rfl

/-- The subscription 1 is verified at 100, with the active subscription 2 of the same
topic. -/
theorem verified_example :
    let w : World (Task .http) :=
      .start (exampleStore "topic" (some 105)) (fun _ => none) []
        (fun _ => Vector.replicate 24 0) 95
    Verified exampleEnv exampleService 100 1 (some (.subscribe "topic" "challenge" 40)) w
      (exampleService.verifyIntent exampleEnv 100 1 (some (.subscribe "topic" "challenge" 40)) w).1
      (exampleService.verifyIntent exampleEnv 100 1
        (some (.subscribe "topic" "challenge" 40)) w).2 :=
  verified 100 1 _ (fun _ => rfl) (by decide)
    (List.forall_iff_forall_mem.1 (by decide))
    fun _ _ _ h => by cases h; decide

end Websub
