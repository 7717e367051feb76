import Websub.Scheduler
import Websub.Lib.OneShot

/-!
# The scheduler as a one-shot timer

`Scheduler::poll` as one step, with the calls of `hasten` and the moves of the clock between
the polls. The next time is kept twice, in the atomic number of the handle, where
`u64::MAX` stands for none, and as the optional deadline of the timer, which `hasten` does
not reach. `Refines` relates the two to a timer that has one next time : the number is that
time, and the deadline is no earlier, so that `poll` lowers it to that time before it polls
the timer.

`refines_oneShot` is the refinement, for every callback and every run, as long as nobody asks
for a tick at `u64::MAX`. Such a call is not a tick at a later time, but none
(`not_refines_maximal`). `exec_poll` is that the one step is the run of the steps of
`Scheduler.step` with nothing in between.

Times are Unix seconds, as the clocks are taken to be consistent.
-/

namespace Websub

open Timers Transducers Machines

variable {σ ι ε : Type}

/-! ## The code -/

/-- A `Scheduler` with its `Handle` and the clock, between two polls, and with the state of
its callback. -/
structure AtomicScheduler (σ : Type) where
  /-- `Handle::next_tick`. -/
  nextTick : UInt64
  /-- The deadline of the timer. -/
  sleep : Option UInt64
  now : UInt64
  tick : σ
  invocations : ℕ

namespace AtomicScheduler

/-- `Handle::new` and `Scheduler::new`. -/
def new (firstTick : Option UInt64) (now : UInt64) (tick : σ) : AtomicScheduler σ where
  nextTick := firstTick.getD noTick
  sleep := decodeNextTick (firstTick.getD noTick)
  now
  tick
  invocations := 0

/-- `Handle::hasten`. -/
def hasten (s : AtomicScheduler σ) (nextTick : UInt64) : AtomicScheduler σ :=
  { s with nextTick := fetchMin s.nextTick nextTick }

/-- The end of `Scheduler::poll`, where the timer has elapsed. -/
def fire (callback : σ → ι → Except ε (Option UInt64) × σ) (i : ι) (s : AtomicScheduler σ) :
    Except ε Unit × AtomicScheduler σ :=
  match callback s.tick i with
  | (.error e, tick) => (.error e, { s with tick, invocations := s.invocations + 1 })
  | (.ok (some nextTick), tick) =>
    (.ok (), { s with nextTick, sleep := some nextTick, tick, invocations := s.invocations + 1 })
  | (.ok none, tick) =>
    (.ok (), { s with nextTick := noTick, sleep := none, tick, invocations := s.invocations + 1 })

/-- `Scheduler::poll`. It is pending, or ends with the error of the callback. -/
def poll (callback : σ → ι → Except ε (Option UInt64) × σ) (i : ι) (s : AtomicScheduler σ) :
    Except ε Unit × AtomicScheduler σ :=
  match adjustSleep s.sleep (decodeNextTick s.nextTick) with
  | none => (.ok (), s)
  | some deadline =>
    if deadline ≤ s.now then fire callback i { s with sleep := some deadline }
    else (.ok (), { s with sleep := some deadline })

/-- What can be seen of a poll that has ended so. -/
def observed (p : Except ε Unit × AtomicScheduler σ) : Observed ℕ ε where
  reply := p.1
  invocations := p.2.invocations
  next := (decodeNextTick p.2.nextTick).map UInt64.toNat
  armed := p.2.sleep.map UInt64.toNat

end AtomicScheduler

/-- The scheduler as a transducer. -/
def atomicScheduler (callback : σ → ι → Except ε (Option UInt64) × σ) :
    Transducer (AtomicScheduler σ) (Action UInt64 ι) (Option (Observed ℕ ε)) where
  step s
    | .hasten nextTick => (none, s.hasten nextTick)
    | .advance now => (none, { s with now })
    | .poll i => (AtomicScheduler.observed (s.poll callback i), (s.poll callback i).2)

/-! ## The step is a run -/

/-- The steps of a poll up to the one that lowers the timer. -/
theorem exec_load {s : Scheduler} (hidle : s.phase = .idle) (halive : s.dropped = false)
    (as : List SchedulerAction) :
    scheduler.exec s (.poll :: .register :: .load :: as) =
      scheduler.exec ({ s with woken := false, registered := true } : Scheduler).load as := by
  have hpoll : scheduler.step s .poll = some { s with woken := false, phase := .entered } := by
    simp [scheduler, Scheduler.step, hidle, halive]
  rw [Machine.exec_of_step hpoll, Machine.exec_of_step (by rfl), Machine.exec_of_step (by rfl)]
  rfl

/-- Without a deadline there was neither a timer nor a time. -/
theorem eq_none_of_adjustSleep {sleep next : Option UInt64} (h : adjustSleep sleep next = none) :
    sleep = none ∧ next = none := by
  cases sleep with
  | none => exact ⟨rfl, h⟩
  | some deadline =>
    cases next with
    | none => cases h
    | some next =>
      rw [adjustSleep] at h
      split at h <;> cases h

/-- The timer is polled. -/
theorem step_check {s : Scheduler} (hphase : s.phase = .loaded) {deadline : UInt64}
    (hsleep : s.sleep = some deadline) (now : UInt64) :
    scheduler.step s (.check now) =
      some { s with phase := if deadline ≤ now then .ticking else .idle } := by
  simp [scheduler, Scheduler.step, hphase, hsleep]

/-- What a poll does to the time and to the timer, the steps of the scheduler's task do when
nothing comes between them. -/
theorem exec_poll (callback : σ → ι → Except ε (Option UInt64) × σ) {s : Scheduler}
    (hidle : s.phase = .idle) (halive : s.dropped = false) (now : UInt64) (tick : σ) (n : ℕ)
    (i : ι) :
    let p := (AtomicScheduler.poll callback i ⟨s.nextTick, s.sleep, now, tick, n⟩).2
    ∃ as t, scheduler.exec s as = some t ∧ t.nextTick = p.nextTick ∧ t.sleep = p.sleep := by
  have hload (as : List SchedulerAction) := exec_load hidle halive as
  simp only [AtomicScheduler.poll]
  cases hd : adjustSleep s.sleep (decodeNextTick s.nextTick) with
  | none =>
    obtain ⟨hsleep, hnone⟩ := eq_none_of_adjustSleep hd
    refine ⟨_, _, (hload []).trans (Machine.exec_nil _ _), rfl, ?_⟩
    simp [Scheduler.load, adjustSleep, hsleep, hnone]
  | some deadline =>
    have hloaded : ({ s with woken := false, registered := true } : Scheduler).load =
        { s with
          woken := false, registered := true, sleep := some deadline, phase := .loaded } := by
      simp [Scheduler.load, hd]
    rw [hloaded] at hload
    have hcheck (as : List SchedulerAction) := (hload (.check now :: as)).trans
      (Machine.exec_of_step (step_check rfl rfl now) as)
    by_cases hdue : deadline ≤ now
    · simp only [hdue, if_true] at hcheck ⊢
      cases hc : callback tick i with
      | mk result tick =>
        simp only [AtomicScheduler.fire, hc]
        cases result with
        | error e => exact ⟨_, _, (hcheck [.fail]).trans rfl, rfl, rfl⟩
        | ok next =>
          refine ⟨_, _, (hcheck [.return next, .store, .reset]).trans rfl, ?_, ?_⟩
          · cases next <;> rfl
          · cases next <;> rfl
    · simp only [hdue, if_false] at hcheck ⊢
      exact ⟨_, _, (hcheck []).trans rfl, rfl, rfl⟩

/-! ## The timer it refines -/

/-- The callback, with its result in seconds. -/
def inSeconds (callback : σ → ι → Except ε (Option UInt64) × σ) (tick : σ) (i : ι) :
    Except ε (Option ℕ) × σ :=
  ((callback tick i).1.map (Option.map UInt64.toNat), (callback tick i).2)

/-- The action, with its time in seconds. -/
def actionInSeconds : Action UInt64 ι → Action ℕ ι
  | .hasten nextTick => .hasten nextTick.toNat
  | .advance now => .advance now.toNat
  | .poll i => .poll i

/-- The timer, with its times in seconds. -/
def oneShot (callback : σ → ι → Except ε (Option UInt64) × σ) :
    Transducer (OneShot ℕ σ) (Action UInt64 ι) (Option (Observed ℕ ε)) where
  step s a := (OneShot.timer (inSeconds callback)).step s (actionInSeconds a)

/-- The timer before the first poll. -/
def OneShot.ofFirstTick (firstTick : Option UInt64) (now : UInt64) (tick : σ) : OneShot ℕ σ :=
  ⟨firstTick.map UInt64.toNat, [], now.toNat, tick, 0⟩

/-- The scheduler keeps the next time of the timer : in its handle as it is, and in its own
timer as it was at some time since. -/
structure Refines (s : AtomicScheduler σ) (t : OneShot ℕ σ) : Prop where
  next : (decodeNextTick s.nextTick).map UInt64.toNat = t.next
  sleep : ∀ deadline ∈ s.sleep, ∃ time ∈ t.next, time ≤ deadline.toNat
  now : s.now.toNat = t.now
  tick : s.tick = t.callback
  invocations : s.invocations = t.invocations

/-- No call asks for the time that stands for no tick. -/
def NotMaximal : Action UInt64 ι → Prop
  | .hasten nextTick => nextTick ≠ noTick
  | _ => True

/-! ## What a step keeps -/

/-- Storing a time and loading it gives it back, but for the one that stands for none. -/
theorem decodeNextTick_getD {next : Option UInt64} (h : next ≠ some noTick) :
    decodeNextTick (next.getD noTick) = next := by
  cases next with
  | none => exact if_neg (not_not.2 rfl)
  | some x => exact if_pos fun hx => h (congrArg some hx)

/-- A new scheduler is a new timer. -/
theorem refines_new {firstTick : Option UInt64} (h : firstTick ≠ some noTick) (now : UInt64)
    (tick : σ) : Refines (.new firstTick now tick) (OneShot.ofFirstTick firstTick now tick) where
  next := by
    unfold AtomicScheduler.new
    rw [decodeNextTick_getD h, OneShot.ofFirstTick, OneShot.next_of_result]
  sleep deadline hd := by
    unfold AtomicScheduler.new at hd
    rw [decodeNextTick_getD h] at hd
    replace hd : firstTick = some deadline := hd
    refine ⟨deadline.toNat, ?_, le_rfl⟩
    unfold OneShot.ofFirstTick
    rw [OneShot.next_of_result, hd]
    rfl
  now := rfl
  tick := rfl
  invocations := rfl

/-- Lowering the atomic time is taking a minimum. -/
theorem decodeNextTick_fetchMin {a b : UInt64} (h : b ≠ noTick) :
    (decodeNextTick (fetchMin a b)).map UInt64.toNat =
      some (((decodeNextTick a).map UInt64.toNat).elim b.toNat (min b.toNat)) := by
  by_cases ha : a = noTick
  · have hlt : b < noTick := by
      rw [← UInt64.not_le, noTick_le_iff]
      exact h
    subst ha
    simp [fetchMin, hlt, decodeNextTick, h]
  · have hmin : (fetchMin a b).toNat = min b.toNat a.toNat := by
      unfold fetchMin
      split
      · rename_i hlt
        rw [UInt64.lt_iff_toNat_lt] at hlt
        omega
      · rename_i hlt
        rw [UInt64.lt_iff_toNat_lt] at hlt
        omega
    have hne : fetchMin a b ≠ noTick := by
      unfold fetchMin
      split
      · exact h
      · exact ha
    simp [decodeNextTick, ha, hne, toNat_fetchMin, min_comm]

section Step

variable {s : AtomicScheduler σ} {t : OneShot ℕ σ}

/-- A call of `hasten` is one of the timer's. -/
theorem Refines.hasten (h : Refines s t) {nextTick : UInt64} (hx : nextTick ≠ noTick) :
    Refines (s.hasten nextTick) { t with hastened := nextTick.toNat :: t.hastened } where
  next := by rw [AtomicScheduler.hasten, decodeNextTick_fetchMin hx, h.next, OneShot.next_of_hasten]
  sleep deadline hd := by
    obtain ⟨time, htime, hle⟩ := h.sleep deadline hd
    rw [OneShot.next_of_hasten, Option.mem_def.1 htime]
    exact ⟨_, rfl, (min_le_right _ _).trans hle⟩
  now := h.now
  tick := h.tick
  invocations := h.invocations

/-- The deadline that `poll` polls is the next time. -/
theorem Refines.adjustSleep (h : Refines s t) :
    (adjustSleep s.sleep (decodeNextTick s.nextTick)).map UInt64.toNat = t.next := by
  rw [← h.next]
  cases hsleep : s.sleep with
  | none => rfl
  | some deadline =>
    obtain ⟨time, htime, hle⟩ := h.sleep deadline hsleep
    rw [← h.next] at htime
    obtain ⟨next, hnext, rfl⟩ := Option.map_eq_some_iff.1 htime
    rw [hnext, Websub.adjustSleep]
    split
    · rfl
    · rename_i hlt
      rw [UInt64.lt_iff_toNat_lt] at hlt
      exact congrArg some (by omega)

/-- The state after the timer was lowered. -/
theorem Refines.lowered (h : Refines s t) {deadline : UInt64} (hd : t.next = some deadline.toNat) :
    Refines { s with sleep := some deadline } t := by
  refine ⟨h.next, fun d hmem => ⟨deadline.toNat, hd, ?_⟩, h.now, h.tick, h.invocations⟩
  rw [← Option.some_inj.1 hmem]

/-- The state after a result was stored. -/
theorem refines_stored (next : Option UInt64) (h : next ≠ some noTick) (now : UInt64) (tick : σ)
    (n : ℕ) : Refines ⟨next.getD noTick, next, now, tick, n⟩
      ⟨next.map UInt64.toNat, [], now.toNat, tick, n⟩ := by
  refine ⟨?_, fun d hd => ⟨d.toNat, ?_, le_rfl⟩, rfl, rfl, rfl⟩
  · rw [decodeNextTick_getD h, OneShot.next_of_result]
  · replace hd : next = some d := hd
    rw [OneShot.next_of_result, hd]
    rfl

variable {callback : σ → ι → Except ε (Option UInt64) × σ}

/-- A poll is a poll of the timer. -/
theorem Refines.poll (hresult : ∀ c i, (callback c i).1 ≠ .ok (some noTick)) (h : Refines s t)
    (i : ι) : AtomicScheduler.observed (s.poll callback i) = (t.poll (inSeconds callback) i).1 ∧
      Refines (s.poll callback i).2 (t.poll (inSeconds callback) i).2 := by
  have hadjust := h.adjustSleep
  rw [AtomicScheduler.poll, OneShot.poll]
  cases hd : Websub.adjustSleep s.sleep (decodeNextTick s.nextTick) with
  | none =>
    rw [hd] at hadjust
    rw [← hadjust]
    refine ⟨?_, h⟩
    simp [AtomicScheduler.observed, h.next, h.invocations, ← hadjust,
      (eq_none_of_adjustSleep hd).1]
  | some deadline =>
    rw [hd, Option.map_some] at hadjust
    rw [← hadjust]
    have hlow := h.lowered hadjust.symm
    by_cases hdue : deadline ≤ s.now
    · have hdue' : deadline.toNat ≤ t.now := h.now ▸ UInt64.le_iff_toNat_le.1 hdue
      simp only [hdue, hdue', if_true, AtomicScheduler.fire, inSeconds, h.tick]
      cases hc : callback t.callback i with
      | mk result tick =>
        cases result with
        | error e =>
          refine ⟨?_, hlow.next, hlow.sleep, h.now, rfl, congrArg (· + 1) h.invocations⟩
          simp [AtomicScheduler.observed, Except.map, h.next, ← hadjust, h.invocations]
        | ok next =>
          have hne : next ≠ some noTick := fun hn => hresult t.callback i (by rw [hc, hn])
          have hstored := refines_stored next hne s.now tick (s.invocations + 1)
          rw [h.now, h.invocations] at hstored
          cases next with
          | none =>
            refine ⟨?_, ?_⟩
            · simp [AtomicScheduler.observed, Except.map, decodeNextTick, h.invocations]
            · rw [h.invocations]
              exact hstored
          | some next =>
            have hdec : decodeNextTick next = some next := decodeNextTick_getD hne
            refine ⟨?_, ?_⟩
            · simp [AtomicScheduler.observed, Except.map, hdec, h.invocations]
            · rw [h.invocations]
              exact hstored
    · have hdue' : ¬ deadline.toNat ≤ t.now := by
        rw [← h.now, ← UInt64.le_iff_toNat_le]
        exact hdue
      simp only [hdue, hdue', if_false]
      exact ⟨by simp [AtomicScheduler.observed, h.next, ← hadjust, h.invocations], hlow⟩

/-- Each call of the code has the result of the timer, and keeps them together. -/
theorem Refines.step (hresult : ∀ c i, (callback c i).1 ≠ .ok (some noTick)) (s : AtomicScheduler σ)
    (t : OneShot ℕ σ) (a : Action UInt64 ι) (h : Refines s t) (ha : NotMaximal a) :
    ((atomicScheduler callback).step s a).1 = ((oneShot callback).step t a).1 ∧
      Refines ((atomicScheduler callback).step s a).2 ((oneShot callback).step t a).2 := by
  cases a with
  | hasten nextTick => exact ⟨rfl, h.hasten ha⟩
  | advance now => exact ⟨rfl, h.next, h.sleep, rfl, h.tick, h.invocations⟩
  | poll i =>
    obtain ⟨hobs, hrel⟩ := h.poll hresult i
    exact ⟨congrArg some hobs, hrel⟩

end Step

/-- The scheduler is a one-shot timer, for every callback and in every run : what can be seen
of each poll is the same, unless a tick at `u64::MAX` was asked for. -/
theorem refines_oneShot (callback : σ → ι → Except ε (Option UInt64) × σ)
    (hresult : ∀ c i, (callback c i).1 ≠ .ok (some noTick)) {firstTick : Option UInt64}
    (hfirst : firstTick ≠ some noTick) (now : UInt64) (tick : σ) {as : List (Action UInt64 ι)}
    (has : ∀ a ∈ as, NotMaximal a) :
    ((atomicScheduler callback).run (.new firstTick now tick) as).1 =
      ((oneShot callback).run (OneShot.ofFirstTick firstTick now tick) as).1 ∧
    Refines ((atomicScheduler callback).run (.new firstTick now tick) as).2
      ((oneShot callback).run (OneShot.ofFirstTick firstTick now tick) as).2 := by
  obtain ⟨houts, hend⟩ := Transducer.run_related (Refines.step hresult)
    (refines_new hfirst now tick) has
  exact ⟨List.forall₂_eq_eq_eq ▸ houts, hend⟩

/-- A callback that asks for a tick at 47, then fails, and then asks for none. -/
def exampleCallback (n : ℕ) (_ : Unit) : Except Unit (Option UInt64) × ℕ :=
  (if n = 0 then .ok (some 47) else if n = 1 then .error () else .ok none, n + 1)

/-- A scheduler with a tick at 5 that is hastened to 3, and then ticks at 4, 47 and 47. -/
theorem refines_oneShot_example :
    let as : List (Action UInt64 Unit) :=
      [.poll (), .hasten 3, .advance 4, .poll (), .advance 47, .poll (), .poll ()]
    ((atomicScheduler exampleCallback).run (.new (some 5) 0 0) as).1 =
      ((oneShot exampleCallback).run (OneShot.ofFirstTick (some 5) 0 0) as).1 ∧
    Refines ((atomicScheduler exampleCallback).run (.new (some 5) 0 0) as).2
      ((oneShot exampleCallback).run (OneShot.ofFirstTick (some 5) 0 0) as).2 :=
  refines_oneShot exampleCallback
    (fun c i => by
      unfold exampleCallback
      split
      · exact (by decide : (Except.ok (some 47) : Except Unit (Option UInt64)) ≠ .ok (some noTick))
      · split <;> nofun)
    (by decide) 0 0 (by simp [NotMaximal, noTick])

/-- A scheduler without a tick that is hastened to `u64::MAX` is not armed for any time. -/
theorem not_refines_maximal :
    ((atomicScheduler exampleCallback).run (.new none 0 0) [.hasten noTick, .poll ()]).1 ≠
      ((oneShot exampleCallback).run (OneShot.ofFirstTick none 0 0)
        [.hasten noTick, .poll ()]).1 := by
  decide

end Websub
