import Websub.Timer
import Websub.Tick
import Websub.Commit

/-!
# Renewals within one second

A hub that verifies a subscription decides on its lease, `verify_intent` hastens the next
tick to the refresh time, and a tick renews whatever expires up to its threshold. `second` is
one second of this : verifications and polls of the scheduler, with `Tick::tick` for its
callback, while the clock stands.

A refresh time is due at once exactly for a lease of at most the margin
(`refreshAt_le_iff`). Such a subscription is also up to the threshold, so it is renewed, and
verified, and renewed again (`storm`). With leases above the margin a scheduler that has
nothing to do, or has ticked, renews nothing more in that second (`no_storm`).
-/

namespace Websub

open Machines Programs Http

variable {cs : Charset} {τ α β : Type}

/-! ## What moves the next tick -/

/-- The call does not touch the next tick. -/
def KeepsTick (x : Db τ α) : Prop :=
  ∀ w, (x w).2.nextTick = w.nextTick

/-- A statement does not hasten. -/
theorem keepsTick_statement (f : Subscriptions → α × Subscriptions) :
    KeepsTick (statement f : Db τ α) := by
  intro w
  unfold statement
  split <;> rfl

theorem KeepsTick.bind {x : Db τ α} {f : α → Db τ β} (hx : KeepsTick x)
    (hf : ∀ a, KeepsTick (f a)) : KeepsTick (x >>= f) :=
  Prog.Within.bind (R := fun w w' : World τ => w'.nextTick = w.nextTick)
    (fun _ _ _ h h' => h'.trans h) hx hf

theorem KeepsTick.each {f : β → Db τ Unit} (hf : ∀ b, KeepsTick (f b)) (l : List β) :
    KeepsTick (Prog.each l f) :=
  Prog.Within.each (R := fun w w' : World τ => w'.nextTick = w.nextTick) (fun _ => rfl)
    (fun _ _ _ h h' => h'.trans h) hf l

/-- A transaction hastens nothing that its closure does not. -/
theorem KeepsTick.transaction {x : Db τ α} (hx : KeepsTick x) : KeepsTick (transaction x) := by
  intro w
  cases h : w.faults w.stmts with
  | some code => simp [Websub.transaction, h, World.observe]
  | none =>
    obtain ⟨t, ht⟩ := exists_closed x h
    rw [ht]
    exact (hx w.opened).trans rfl

theorem Hub.keepsTick_unsubscribe (env : Env) (callback : Uri cs) (id : UInt64)
    (hub topic : String) : KeepsTick (Hub.unsubscribe env callback id hub topic) := by
  refine KeepsTick.bind (keepsTick_statement _) fun _ => ?_
  cases makeCallback env.engine callback id with
  | none => exact fun _ => rfl
  | some c =>
    intro w
    simp only [Hub.sendRequest]
    split <;> rfl

section Service

variable {env : Env} {service : Service cs}

/-- The transaction of `verify_intent` hastens nothing. -/
theorem Service.keepsTick_activate (id : UInt64) (hub topic : String) (expiresAt : Int64) :
    KeepsTick (service.activate env id hub topic expiresAt) :=
  KeepsTick.transaction <| KeepsTick.bind (keepsTick_statement _) fun _ =>
    KeepsTick.bind (KeepsTick.each (fun _ => KeepsTick.bind (Hub.keepsTick_unsubscribe env _ _ _ _)
      fun _ _ => rfl) _) fun _ => KeepsTick.bind (keepsTick_statement _) fun _ _ => rfl

/-- However `verify_intent` ends, it leaves the next tick or lowers it to a refresh time. -/
theorem Service.nextTick_of_verifyIntent (env : Env) (service : Service cs) (now id : UInt64)
    (q : Option Verify) (w : World (Task cs)) :
    (service.verifyIntent env now id q w).2.nextTick = w.nextTick ∨
      ∃ topic challenge leaseSeconds tick, q = some (.subscribe topic challenge leaseSeconds) ∧
        service.refreshTime env (expiryOf now leaseSeconds).toUInt64 = some tick ∧
        (service.verifyIntent env now id q w).2.nextTick = fetchMin w.nextTick tick := by
  match q with
  | none => exact .inl rfl
  | some (.unsubscribe topic challenge) =>
    exact .inl (KeepsTick.bind (keepsTick_statement _) (fun _ _ => rfl) w)
  | some (.subscribe topic challenge leaseSeconds) =>
    cases ht : service.refreshTime env (expiryOf now leaseSeconds).toUInt64 with
    | none =>
      refine .inl (KeepsTick.bind (keepsTick_statement _) (fun found => ?_) w)
      cases found with
      | none => exact fun _ => rfl
      | some hub =>
        simp only [verifySubscription, ht]
        exact fun _ => rfl
    | some tick =>
      have hquery := keepsTick_statement (τ := Task cs)
        (fun t => (t.getHubOfInactiveSubscription id topic, t)) w
      have hbody (hub : String) (v : World (Task cs)) :
          (service.verifySubscription env now id hub topic challenge leaseSeconds v).2.nextTick =
            fetchMin v.nextTick tick := by
        simp only [verifySubscription, ht]
        exact KeepsTick.bind (keepsTick_activate id hub topic _) (fun _ _ => rfl)
          { v with nextTick := fetchMin v.nextTick tick }
      rw [verifyIntent, getHubOfInactiveSubscription, query, Prog.bind_apply]
      cases hread : statement (fun t => (t.getHubOfInactiveSubscription id topic, t)) w with
      | mk r v =>
        rw [hread] at hquery
        cases r with
        | error e => exact .inl hquery
        | ok found =>
          cases found with
          | none => exact .inl hquery
          | some hub =>
            refine .inr ⟨topic, challenge, leaseSeconds, tick, rfl, ht, ?_⟩
            rw [← hquery]
            exact hbody hub v

/-- A tick that changes the store had a threshold. -/
theorem Service.range_of_tick {now : UInt64} {w : World (Task cs)}
    (hw : env.overflowChecks = true ∨ now.toNat + service.renewalMargin.toNat + 1 < 2 ^ 64)
    (h : (service.tick env now w).2.store ≠ w.store) :
    now.toNat + service.renewalMargin.toNat + 1 < 2 ^ 63 := by
  cases hr : service.renewSubscriptions env now w with
  | mk r v =>
    cases r with
    | error e =>
      unfold tick at h
      rw [Prog.bind_of_error hr] at h
      exact absurd (store_of_renewSubscriptions_error hr) h
    | ok =>
      unfold renewSubscriptions at hr
      cases ht : renewalThreshold env service.renewalMargin now with
      | none =>
        rw [ht] at hr
        cases (Prod.mk.inj hr).1
      | some threshold => exact (toInt_of_renewalThreshold ht hw).2

/-- Where the threshold is in range, the refresh time of a lease is due at once exactly if
the lease is at most the margin. -/
theorem refreshAt_le_iff {now leaseSeconds : UInt64}
    (hrange : now.toNat + service.renewalMargin.toNat + 1 < 2 ^ 63) :
    refreshAt service.renewalMargin (expiryOf now leaseSeconds) ≤ now ↔
      leaseSeconds ≤ service.renewalMargin := by
  rw [UInt64.le_iff_toNat_le, toNat_refreshAt, toNat_expiryOf, UInt64.le_iff_toNat_le]
  omega

/-- The refresh time that `verify_intent` hastens to, for a lease above the margin. -/
theorem refreshTime_eq_refreshAt {now leaseSeconds tick : UInt64}
    (hrange : now.toNat + service.renewalMargin.toNat + 1 < 2 ^ 63)
    (hlease : service.renewalMargin < leaseSeconds)
    (h : service.refreshTime env (expiryOf now leaseSeconds).toUInt64 = some tick) :
    tick = refreshAt service.renewalMargin (expiryOf now leaseSeconds) := by
  refine hastened_eq h (.inr fun e he => ?_)
  obtain rfl := Option.some_inj.1 ((u64TryFrom_expiryOf now leaseSeconds).symm.trans he)
  rw [UInt64.lt_iff_toNat_lt] at hlease
  rw [UInt64.le_iff_toNat_le, toNat_toUInt64_expiryOf]
  omega

end Service

/-! ## One second -/

/-- Lowering the timer twice is lowering it once. -/
theorem adjustSleep_adjustSleep (sleep next : Option UInt64) :
    adjustSleep (adjustSleep sleep next) next = adjustSleep sleep next := by
  match sleep, next with
  | none, none => rfl
  | none, some next => simp [adjustSleep]
  | some deadline, none => rfl
  | some deadline, some next =>
    by_cases h : next < deadline <;> simp [adjustSleep, h]

namespace AtomicScheduler

/-- The timer of a poll has elapsed. -/
def Due {σ : Type} (s : AtomicScheduler σ) : Prop :=
  ∃ deadline ∈ adjustSleep s.sleep (decodeNextTick s.nextTick), deadline ≤ s.now

/-- A scheduler is due if its timer or its time is over. -/
theorem due_iff {σ : Type} {s : AtomicScheduler σ} : s.Due ↔
    (∃ deadline ∈ s.sleep, deadline ≤ s.now) ∨ s.nextTick ≠ noTick ∧ s.nextTick ≤ s.now := by
  unfold Due
  cases s.sleep with
  | none =>
    by_cases hn : s.nextTick = noTick <;> simp [decodeNextTick, adjustSleep, hn]
  | some deadline =>
    by_cases hn : s.nextTick = noTick
    · simp [decodeNextTick, adjustSleep, hn]
    · simp only [decodeNextTick, adjustSleep, hn, ne_eq, not_false_eq_true, if_true]
      split
      · rename_i hlt
        simp only [Option.mem_def, Option.some.injEq, exists_eq_left', true_and]
        exact ⟨.inr, fun h => h.elim (UInt64.le_trans (UInt64.le_of_lt hlt)) id⟩
      · rename_i hlt
        simp only [Option.mem_def, Option.some.injEq, exists_eq_left', true_and]
        exact ⟨.inl, fun h => h.elim id (UInt64.le_trans (UInt64.not_lt.1 hlt))⟩

end AtomicScheduler

/-- What happens within a second. -/
inductive SecondAction
  /-- A request to verify an intent, of the query as it was parsed. -/
  | verify (id : UInt64) (q : Option Verify)
  | poll

section Second

variable (env : Env) (service : Service cs) (now : UInt64)

/-- `Tick::tick` as the callback of a scheduler. -/
def tickCallback (w : World (Task cs)) (_ : Unit) : Except Stop (Option UInt64) × World (Task cs) :=
  service.tick env now w

/-- `verify_intent` beside a scheduler. -/
def AtomicScheduler.verify (id : UInt64) (q : Option Verify)
    (s : AtomicScheduler (World (Task cs))) :
    Except Stop Answer × AtomicScheduler (World (Task cs)) :=
  match service.verifyIntent env now id q { s.tick with nextTick := s.nextTick } with
  | (answer, w) => (answer, { s with nextTick := w.nextTick, tick := w })

/-- A scheduler with the store that its callback renews, and the verifications that hasten
it, at the time `now`. -/
def second : Machine (AtomicScheduler (World (Task cs))) SecondAction where
  init s := s.now = now
  step s
    | .verify id q => some (s.verify env service now id q).2
    | .poll => some (s.poll (tickCallback env service now) ()).2

/-- The lease is above the margin. -/
def LeaseAbove (_ : AtomicScheduler (World (Task cs))) : SecondAction → Prop
  | .verify _ (some (.subscribe _ _ leaseSeconds)) => service.renewalMargin < leaseSeconds
  | _ => True

/-- The scheduler has nothing to do, or a poll in this second has just ticked. -/
def Settled (s : AtomicScheduler (World (Task cs))) : Prop :=
  ¬s.Due ∨ ∃ p : AtomicScheduler (World (Task cs)), p.now = now ∧
    p.poll (tickCallback env service now) () = (.ok (), s) ∧ s.invocations = p.invocations + 1

end Second

section Step

variable {env : Env} {service : Service cs} {now : UInt64}
  {s : AtomicScheduler (World (Task cs))}

/-- A poll that is not due leaves the store, and lowers the timer to the next tick. -/
theorem poll_of_not_due (h : ¬s.Due) :
    (s.poll (tickCallback env service now) ()).2 =
      { s with sleep := adjustSleep s.sleep (decodeNextTick s.nextTick) } := by
  rw [AtomicScheduler.poll]
  cases hd : adjustSleep s.sleep (decodeNextTick s.nextTick) with
  | none =>
    have hself : s = { s with sleep := none } := by rw [← (eq_none_of_adjustSleep hd).1]
    exact hself
  | some deadline =>
    have hlate : ¬deadline ≤ s.now := fun hle => h ⟨deadline, hd, hle⟩
    simp [hlate]

/-- A poll that changes the store has run a tick that did. -/
theorem tick_of_poll (h : (s.poll (tickCallback env service now) ()).2.tick.store ≠ s.tick.store) :
    s.Due ∧ (service.tick env now s.tick).2.store ≠ s.tick.store := by
  have hdue : s.Due := by
    by_contra hnot
    rw [poll_of_not_due hnot] at h
    exact h rfl
  refine ⟨hdue, fun hstore => h ?_⟩
  obtain ⟨deadline, hd, hle⟩ := hdue
  rw [AtomicScheduler.poll, Option.mem_def.1 hd]
  simp only [hle, if_true, AtomicScheduler.fire, tickCallback]
  cases ht : service.tick env now s.tick with
  | mk r w =>
    rw [ht] at hstore
    cases r with
    | error e => exact hstore
    | ok next => cases next <;> exact hstore

/-- A tick that has returned is not due again in its second. -/
theorem not_due_of_poll (hw : env.overflowChecks = true ∨
      now.toNat + service.renewalMargin.toNat + 1 < 2 ^ 64)
    {p : AtomicScheduler (World (Task cs))} (hnow : p.now = now)
    (h : p.poll (tickCallback env service now) () = (.ok (), s))
    (hinv : s.invocations = p.invocations + 1) : s.now = now ∧ ¬s.Due := by
  rw [AtomicScheduler.poll] at h
  cases hd : adjustSleep p.sleep (decodeNextTick p.nextTick) with
  | none =>
    simp only [hd] at h
    obtain rfl := (Prod.mk.inj h).2
    omega
  | some deadline =>
    simp only [hd] at h
    split at h
    · simp only [AtomicScheduler.fire, tickCallback] at h
      cases ht : service.tick env now p.tick with
      | mk r w =>
        cases r with
        | error e =>
          rw [ht] at h
          cases (Prod.mk.inj h).1
        | ok next =>
          cases next with
          | none =>
            rw [ht] at h
            obtain rfl := (Prod.mk.inj h).2
            exact ⟨hnow, by simp [AtomicScheduler.due_iff]⟩
          | some tick =>
            rw [ht] at h
            obtain rfl := (Prod.mk.inj h).2
            have hlt := Service.ahead_of_tick hw ht rfl
            refine ⟨hnow, fun hdue => ?_⟩
            rw [AtomicScheduler.due_iff] at hdue
            simp only [Option.mem_def, Option.some.injEq, exists_eq_left', hnow,
              UInt64.le_iff_toNat_le] at hdue
            omega
    · obtain rfl := (Prod.mk.inj h).2
      exact absurd hinv (by simp)

/-- A verification with a lease above the margin makes nothing due. -/
theorem not_due_of_verify (hrange : now.toNat + service.renewalMargin.toNat + 1 < 2 ^ 63)
    (hnow : s.now = now) (h : ¬s.Due) {id : UInt64} {q : Option Verify}
    (hok : LeaseAbove service s (.verify id q)) : ¬(s.verify env service now id q).2.Due := by
  rw [AtomicScheduler.due_iff, not_or] at h ⊢
  refine ⟨h.1, ?_⟩
  have hnext := Service.nextTick_of_verifyIntent env service now id q
    { s.tick with nextTick := s.nextTick }
  rcases hnext with hnext | ⟨topic, challenge, leaseSeconds, tick, rfl, ht, hnext⟩
  · unfold AtomicScheduler.verify
    simp only [hnext]
    exact h.2
  · unfold AtomicScheduler.verify
    simp only [hnext]
    have hlease : service.renewalMargin < leaseSeconds := hok
    have hlate : ¬tick ≤ now := by
      rw [refreshTime_eq_refreshAt hrange hlease ht, refreshAt_le_iff hrange]
      exact UInt64.not_le.2 hlease
    rintro ⟨-, hle⟩
    rw [hnow, fetchMin_le_iff, or_iff_left hlate] at hle
    refine h.2 ⟨?_, hnow ▸ hle⟩
    rintro hmax
    rw [hmax, noTick_le_iff] at hle
    rw [hle] at hrange
    simp [noTick] at hrange
    omega

end Step

/-- Within one second, where every lease is above the margin : once the scheduler has nothing
to do, or has ticked, no poll renews anything, whatever is verified. -/
theorem no_storm (env : Env) (service : Service cs) (now : UInt64)
    (hw : env.overflowChecks = true ∨ now.toNat + service.renewalMargin.toNat + 1 < 2 ^ 64)
    {s : AtomicScheduler (World (Task cs))}
    (hs : ((second env service now).startingIn (Settled env service now)).Reachable
      (LeaseAbove service) s) :
    (s.poll (tickCallback env service now) ()).2.tick.store = s.tick.store := by
  by_contra hstore
  obtain ⟨hdue, hticked⟩ := tick_of_poll hstore
  have hrange := Service.range_of_tick hw hticked
  have hinv : s.now = now ∧ ¬s.Due := by
    refine hs.invariant (I := fun s => s.now = now ∧ ¬s.Due) ?_ ?_
    · rintro s ⟨hnow, hnot | ⟨p, hp, hpoll, hinvoked⟩⟩
      · exact ⟨hnow, hnot⟩
      · exact not_due_of_poll hw hp hpoll hinvoked
    · rintro s a t ⟨hnow, hnot⟩ hok hst
      cases a with
      | verify id q =>
        obtain rfl := Option.some_inj.1 hst
        exact ⟨hnow, not_due_of_verify hrange hnow hnot hok⟩
      | poll =>
        obtain rfl := Option.some_inj.1 hst
        rw [poll_of_not_due hnot]
        refine ⟨hnow, fun hdue' => hnot ?_⟩
        rw [AtomicScheduler.Due, adjustSleep_adjustSleep] at hdue'
        exact hdue'
  exact hinv.2 hdue

/-! ## Leases of at most the margin -/

/-- A subscription that is verified with a lease of at most the margin is due at once, and up
to the threshold of the tick that renews it. -/
theorem storm {env : Env} {service : Service cs} {now leaseSeconds : UInt64}
    (hrange : now.toNat + service.renewalMargin.toNat + 1 < 2 ^ 63)
    (hlease : leaseSeconds ≤ service.renewalMargin) :
    refreshAt service.renewalMargin (expiryOf now leaseSeconds) ≤ now ∧
      ∃ threshold, renewalThreshold env service.renewalMargin now = some threshold ∧
        expiryOf now leaseSeconds ≤ threshold := by
  obtain ⟨threshold, ht, hint⟩ := exists_renewalThreshold env hrange
  refine ⟨(refreshAt_le_iff hrange).2 hlease, threshold, ht, ?_⟩
  rw [UInt64.le_iff_toNat_le] at hlease
  rw [Int64.le_iff_toInt_le, toInt_expiryOf, hint]
  omega

/-- A scheduler without a tick at 100, with the inactive subscription 1 and the next id. -/
def exampleSecond : AtomicScheduler (World (Task .http)) :=
  .new none 100 (.start (exampleStore "other" none) (fun _ => none) [3]
    (fun _ => Vector.replicate 24 0) noTick)

/-- The scheduler of the example is not due. -/
theorem not_due_exampleSecond : ¬exampleSecond.Due := by
  rintro ⟨deadline, hd, -⟩
  cases hd

/-- A verification in the second of a poll. -/
theorem no_storm_example :
    let s := (exampleSecond.verify exampleEnv exampleService 100 1
      (some (.subscribe "topic" "challenge" 11))).2
    (s.poll (tickCallback exampleEnv exampleService 100) ()).2.tick.store = s.tick.store := by
  have hinit : ((second exampleEnv exampleService 100).startingIn
      (Settled exampleEnv exampleService 100)).init exampleSecond :=
    ⟨(rfl : exampleSecond.now = 100), .inl not_due_exampleSecond⟩
  have hlease : LeaseAbove exampleService exampleSecond
      (.verify 1 (some (.subscribe "topic" "challenge" 11))) := (by decide : (10 : UInt64) < 11)
  exact no_storm exampleEnv exampleService 100 (.inl rfl) (.step (.init hinit) hlease rfl)

/-- With a margin of ten seconds and a lease of five, the subscription 1 is confirmed at 100,
and renewed at 100 : it is inactive again, and the new subscription 3 is to be verified. -/
theorem storm_example :
    let s := exampleSecond.verify exampleEnv exampleService 100 1
      (some (.subscribe "topic" "challenge" 5))
    let p := s.2.poll (tickCallback exampleEnv exampleService 100) ()
    ¬exampleSecond.Due ∧ s.1 = .ok (.challenge "challenge") ∧
      s.2.tick.store.rows.map (fun r => (r.id, r.expiresAt)) = [(1, some 105), (2, none)] ∧
      p.1 = .ok () ∧
      p.2.tick.store.rows.map (fun r => (r.id, r.expiresAt)) = [(1, none), (2, none), (3, none)] ∧
      p.2.tick.spawned.map Task.id = [3] := by
  refine ⟨not_due_exampleSecond, by rfl, by rfl, by rfl, by rfl, by rfl⟩

end Websub
