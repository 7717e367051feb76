import Websub.Service
import Websub.Lib.Machine

/-!
# The scheduler

`subscriber/scheduler.rs`. `Handle::hasten` lowers an atomic time and then wakes the task
of the scheduler. `Scheduler::poll` registers its waker, loads the time, lowers the timer,
polls the timer, and once that has elapsed runs the callback, stores its result over the
time and resets the timer. `scheduler` is the machine of these steps, with those of any
number of `hasten` calls between them.

A stored result overwrites what `hasten` did while the callback ran. As long as no result
is later than such a `hasten`, none is lost (`hasten_not_lost`) : what it asked for is in
the time and in the timer, or a wake-up is outstanding, or the callback has run since.
`Scheduler.outcome_of_step` says once what a step can do.

Deadlines are Unix seconds, as the clocks are taken to be consistent. A waker that is
registered while another thread wakes is woken at once, a timer keeps the waker of its last
poll, and `sleep_until` and `reset` only set the deadline : these are the documented
behaviour of `AtomicWaker` and of tokio.
-/

namespace Websub

open Machines

/-! ## The code -/

/-- Where the scheduler's task is in `Scheduler::poll`. -/
inductive Phase
  /-- Not polled, after `Poll::Pending` or before the first poll. -/
  | idle
  /-- The handle is upgraded, and the waker not yet registered. -/
  | entered
  /-- The waker is registered, and the time not yet loaded. -/
  | registered
  /-- The timer is lowered, and not yet polled. -/
  | loaded
  /-- The callback runs. -/
  | ticking
  /-- The callback has returned, and its result is not yet stored. -/
  | returned (next : Option UInt64)
  /-- The result is stored, and the timer not yet reset. -/
  | stored (next : Option UInt64)
  /-- After `Poll::Ready`. -/
  | finished
deriving DecidableEq

/-- A `Scheduler` with its `Handle` and the threads in `Handle::hasten`. -/
structure Scheduler where
  /-- `Handle::next_tick`. -/
  nextTick : UInt64
  /-- `Handle::task` holds the waker of the scheduler. -/
  registered : Bool
  /-- The scheduler's task is spawned or woken, and not polled since. -/
  woken : Bool
  /-- The calls of `hasten` that have lowered the time and have not yet woken the task. -/
  waking : List UInt64
  /-- The deadline of the timer. -/
  sleep : Option UInt64
  /-- The last `Arc` of the handle is gone. -/
  dropped : Bool
  phase : Phase
deriving DecidableEq

/-- `Handle::decode_next_tick`. -/
def decodeNextTick (nextTick : UInt64) : Option UInt64 :=
  if nextTick ≠ noTick then some nextTick else none

/-- The timer after `Scheduler::poll` has loaded the time. -/
def adjustSleep (sleep next : Option UInt64) : Option UInt64 :=
  match sleep, next with
  | some deadline, some next => if next < deadline then some next else some deadline
  | some deadline, none => some deadline
  | none, next => next

namespace Scheduler

/-- `Handle::new` and `Scheduler::new`. -/
def new (firstTick : Option UInt64) : Scheduler where
  nextTick := firstTick.getD noTick
  registered := false
  woken := true
  waking := []
  sleep := decodeNextTick (firstTick.getD noTick)
  dropped := false
  phase := .idle

variable (s : Scheduler)

/-- `AtomicWaker::wake`. -/
def wake : Scheduler :=
  { s with registered := false, woken := s.woken || s.registered }

/-- `Handle::hasten` up to the wake-up. -/
def hasten (x : UInt64) : Scheduler :=
  { s with
    nextTick := fetchMin s.nextTick x
    waking := if x < s.nextTick then x :: s.waking else s.waking }

/-- Load the time and lower the timer, or return without a timer. -/
def load : Scheduler :=
  let sleep := adjustSleep s.sleep (decodeNextTick s.nextTick)
  { s with sleep, phase := if sleep = none then .idle else .loaded }

end Scheduler

/-- A step of the scheduler's task, of a call of `hasten`, or of the timer. -/
inductive SchedulerAction
  /-- `hasten` lowers the time. -/
  | hasten (x : UInt64)
  /-- `hasten` wakes the task. -/
  | wake (x : UInt64)
  /-- The timer wakes the task. -/
  | fire (now : UInt64)
  /-- The handle is dropped. -/
  | drop
  | poll
  | register
  | load
  /-- The timer is polled. -/
  | check (now : UInt64)
  /-- The callback returns. -/
  | return (next : Option UInt64)
  /-- The callback fails. -/
  | fail
  | store
  | reset
deriving DecidableEq

/-- One step. -/
def Scheduler.step (s : Scheduler) : SchedulerAction → Option Scheduler
  | .hasten x => if s.dropped then none else some (s.hasten x)
  | .wake x => if x ∈ s.waking then some { s with waking := s.waking.erase x }.wake else none
  | .fire now =>
    match s.sleep with
    | some deadline => if deadline ≤ now then some { s with woken := true } else none
    | none => none
  | .drop =>
    if s.phase = .idle ∧ s.waking = [] then some { s with dropped := true }.wake else none
  | .poll =>
    if s.phase = .idle then
      some { s with woken := false, phase := if s.dropped then .finished else .entered }
    else none
  | .register =>
    if s.phase = .entered then some { s with registered := true, phase := .registered } else none
  | .load => if s.phase = .registered then some s.load else none
  | .check now =>
    match s.phase, s.sleep with
    | .loaded, some deadline =>
      some { s with phase := if deadline ≤ now then .ticking else .idle }
    | _, _ => none
  | .return next => if s.phase = .ticking then some { s with phase := .returned next } else none
  | .fail => if s.phase = .ticking then some { s with phase := .finished } else none
  | .store =>
    match s.phase with
    | .returned next => some { s with nextTick := next.getD noTick, phase := .stored next }
    | _ => none
  | .reset =>
    match s.phase with
    | .stored next => some { s with sleep := next, phase := .idle }
    | _ => none

/-- What each step does, said once : the state after it, by how it ends. -/
inductive Scheduler.Outcome (s : Scheduler) : SchedulerAction → Scheduler → Prop
  | hasten {x : UInt64} (alive : s.dropped = false) : Outcome s (.hasten x) (s.hasten x)
  | wake {x : UInt64} (waking : x ∈ s.waking) :
      Outcome s (.wake x) { s with waking := s.waking.erase x }.wake
  | fire {now deadline : UInt64} (sleep : s.sleep = some deadline) (elapsed : deadline ≤ now) :
      Outcome s (.fire now) { s with woken := true }
  | drop (idle : s.phase = .idle) (waking : s.waking = []) :
      Outcome s .drop { s with dropped := true }.wake
  | poll (idle : s.phase = .idle) (alive : s.dropped = false) :
      Outcome s .poll { s with woken := false, phase := .entered }
  | pollDropped (idle : s.phase = .idle) (dropped : s.dropped = true) :
      Outcome s .poll { s with woken := false, phase := .finished }
  | register (entered : s.phase = .entered) :
      Outcome s .register { s with registered := true, phase := .registered }
  | load {deadline : UInt64} (registered : s.phase = .registered)
      (sleep : adjustSleep s.sleep (decodeNextTick s.nextTick) = some deadline) :
      Outcome s .load { s with sleep := some deadline, phase := .loaded }
  | loadUnset (registered : s.phase = .registered)
      (sleep : adjustSleep s.sleep (decodeNextTick s.nextTick) = none) :
      Outcome s .load { s with sleep := none, phase := .idle }
  | check {now deadline : UInt64} (loaded : s.phase = .loaded) (sleep : s.sleep = some deadline)
      (elapsed : deadline ≤ now) : Outcome s (.check now) { s with phase := .ticking }
  | checkPending {now deadline : UInt64} (loaded : s.phase = .loaded)
      (sleep : s.sleep = some deadline) (pending : ¬deadline ≤ now) :
      Outcome s (.check now) { s with phase := .idle }
  | «return» {next : Option UInt64} (ticking : s.phase = .ticking) :
      Outcome s (.return next) { s with phase := .returned next }
  | fail (ticking : s.phase = .ticking) : Outcome s .fail { s with phase := .finished }
  | store {next : Option UInt64} (returned : s.phase = .returned next) :
      Outcome s .store { s with nextTick := next.getD noTick, phase := .stored next }
  | reset {next : Option UInt64} (stored : s.phase = .stored next) :
      Outcome s .reset { s with sleep := next, phase := .idle }

/-- Every step of the scheduler ends in one of these ways. -/
theorem Scheduler.outcome_of_step {s t : Scheduler} {a : SchedulerAction} (h : s.step a = some t) :
    s.Outcome a t := by
  cases a with
  | hasten x =>
    simp only [step, Option.ite_none_left_eq_some, Option.some_inj] at h
    obtain ⟨halive, rfl⟩ := h
    exact .hasten (Bool.eq_false_iff.2 halive)
  | wake x =>
    simp only [step, Option.ite_none_right_eq_some, Option.some_inj] at h
    obtain ⟨hx, rfl⟩ := h
    exact .wake hx
  | fire now =>
    simp only [step] at h
    split at h
    · rename_i deadline hsleep
      rw [Option.ite_none_right_eq_some, Option.some_inj] at h
      obtain ⟨helapsed, rfl⟩ := h
      exact .fire hsleep helapsed
    · cases h
  | drop =>
    simp only [step, Option.ite_none_right_eq_some, Option.some_inj] at h
    obtain ⟨⟨hidle, hwaking⟩, rfl⟩ := h
    exact .drop hidle hwaking
  | poll =>
    simp only [step, Option.ite_none_right_eq_some, Option.some_inj] at h
    obtain ⟨hidle, rfl⟩ := h
    split
    · rename_i hdropped
      exact .pollDropped hidle hdropped
    · rename_i halive
      exact .poll hidle (Bool.eq_false_iff.2 halive)
  | register =>
    simp only [step, Option.ite_none_right_eq_some, Option.some_inj] at h
    obtain ⟨hentered, rfl⟩ := h
    exact .register hentered
  | load =>
    simp only [step, Option.ite_none_right_eq_some, Option.some_inj] at h
    obtain ⟨hregistered, rfl⟩ := h
    unfold Scheduler.load
    cases hsleep : adjustSleep s.sleep (decodeNextTick s.nextTick) with
    | none => exact .loadUnset hregistered hsleep
    | some deadline => exact .load hregistered hsleep
  | check now =>
    simp only [step] at h
    split at h
    · rename_i deadline hloaded hsleep
      obtain rfl := Option.some_inj.1 h
      by_cases helapsed : deadline ≤ now
      · rw [if_pos helapsed]
        exact .check hloaded hsleep helapsed
      · rw [if_neg helapsed]
        exact .checkPending hloaded hsleep helapsed
    · cases h
  | «return» next =>
    simp only [step, Option.ite_none_right_eq_some, Option.some_inj] at h
    obtain ⟨hticking, rfl⟩ := h
    exact .return hticking
  | fail =>
    simp only [step, Option.ite_none_right_eq_some, Option.some_inj] at h
    obtain ⟨hticking, rfl⟩ := h
    exact .fail hticking
  | store =>
    simp only [step] at h
    split at h
    · rename_i next hreturned
      obtain rfl := Option.some_inj.1 h
      exact .store hreturned
    · cases h
  | reset =>
    simp only [step] at h
    split at h
    · rename_i next hstored
      obtain rfl := Option.some_inj.1 h
      exact .reset hstored
    · cases h

/-- The runs of a scheduler. -/
def scheduler : Machine Scheduler SchedulerAction where
  init s := ∃ firstTick, s = .new firstTick
  step := Scheduler.step

/-! ## Calls of `hasten` that are owed a tick -/

/-- From when on a call of `hasten` is before a callback that is started : from when it
has lowered the time, or from when it has returned. -/
inductive Since
  | lowered
  | returned
deriving DecidableEq

/-- The calls of `hasten` so far. -/
def asked (xs : List UInt64) : SchedulerAction → List UInt64
  | .hasten x => x :: xs
  | _ => xs

/-- The calls of `hasten` after which the callback has not been started. -/
def owed (since : Since) (xs : List UInt64) (s : Scheduler) (a : SchedulerAction)
    (t : Scheduler) : List UInt64 :=
  if t.phase = .ticking ∧ s.phase ≠ .ticking then
    match since with
    | .lowered => []
    | .returned => s.waking
  else asked xs a

/-- The scheduler, with the calls of `hasten` that are owed a tick. -/
def owing (since : Since) : Machine (Scheduler × List UInt64) SchedulerAction :=
  scheduler.withHistory (fun _ => []) (owed since)

/-- The time that a `store` stores. -/
def Phase.result : Phase → UInt64
  | .returned next => next.getD noTick
  | _ => noTick

/-- While a call is owed a tick only a time that is no later is stored, and no call asks for
the time that stands for no tick where none is set. -/
def InTime (p : Scheduler × List UInt64) : SchedulerAction → Prop
  | .hasten x => x ≠ noTick ∨ p.1.nextTick ≠ noTick
  | .store => ∀ x ∈ p.2, p.1.phase.result ≤ x ∧ p.1.phase.result ≠ noTick
  | _ => True

instance (p : Scheduler × List UInt64) : ∀ a, Decidable (InTime p a)
  | .hasten x => inferInstanceAs (Decidable (x ≠ noTick ∨ p.1.nextTick ≠ noTick))
  | .store => inferInstanceAs (Decidable (∀ x ∈ p.2,
    p.1.phase.result ≤ x ∧ p.1.phase.result ≠ noTick))
  | .wake _ | .fire _ | .drop | .poll | .register | .load | .check _ | .return _ | .fail | .reset =>
    isTrue trivial

/-- The timer is set to no later than `x`. -/
def Scheduler.Armed (s : Scheduler) (x : UInt64) : Prop :=
  ∃ deadline, s.sleep = some deadline ∧ deadline ≤ x

/-- The deadline of the timer, as it will be once `poll` has reset it. -/
def Scheduler.deadline (s : Scheduler) : Option UInt64 :=
  match s.phase with
  | .stored next => next
  | _ => s.sleep

/-- The timer is set to no later than `x`, or the task is woken, or a call of `hasten` that
asks for no later than `x` is about to wake it. -/
def Scheduler.Covers (s : Scheduler) (x : UInt64) : Prop :=
  (∃ d, s.deadline = some d ∧ d ≤ x) ∨ s.woken = true ∨ ∃ y ∈ s.waking, y ≤ x

/-- `poll` is between entering and loading the time, or is over. -/
def Phase.unloaded : Phase → Bool
  | .entered | .registered | .finished => true
  | _ => false

/-- What every step keeps. -/
structure SchedulerInv (since : Since) (p : Scheduler × List UInt64) : Prop where
  /-- A wake-up reaches the task. -/
  waker : p.1.registered = true ∨ p.1.woken = true ∨ p.1.phase = .entered ∨ p.1.phase = .finished
  /-- The time is set, and no later than what is owed. -/
  lowered : ∀ x ∈ p.2, p.1.nextTick ≤ x ∧ p.1.nextTick ≠ noTick
  waking : since = .returned → ∀ x ∈ p.1.waking, x ∈ p.2
  /-- The timer is no later than the time, as far as the task does not know better. -/
  covers : p.1.phase.unloaded = false → p.1.nextTick ≠ noTick → p.1.Covers p.1.nextTick

/-- No time is later than the one that stands for no tick. -/
theorem noTick_le_iff {x : UInt64} : noTick ≤ x ↔ x = noTick := by
  rw [UInt64.le_iff_toNat_le, ← UInt64.toNat_inj]
  have := x.toNat_lt
  simp [noTick]
  omega

/-- The lowered time is within a bound if the time or what is asked for is. -/
theorem fetchMin_le_iff {a b c : UInt64} : fetchMin a b ≤ c ↔ a ≤ c ∨ b ≤ c := by
  unfold fetchMin
  split <;> grind

/-- No tick is set after a call of `hasten` only if none was, and none is asked for. -/
theorem of_fetchMin_eq_noTick {a b : UInt64} (h : fetchMin a b = noTick) :
    a = noTick ∧ b = noTick := by
  have hle {c : UInt64} (hc : fetchMin a b ≤ c) : c = noTick := noTick_le_iff.1 (h ▸ hc)
  exact ⟨hle (fetchMin_le_iff.2 (.inl (UInt64.le_refl a))),
    hle (fetchMin_le_iff.2 (.inr (UInt64.le_refl b)))⟩

theorem toNat_fetchMin (a b : UInt64) : (fetchMin a b).toNat = min a.toNat b.toNat := by
  unfold fetchMin
  split
  · rename_i h
    rw [UInt64.lt_iff_toNat_lt] at h
    omega
  · rename_i h
    rw [UInt64.lt_iff_toNat_lt] at h
    omega

/-- A new scheduler owes nothing. -/
theorem owing_init (since : Since) (firstTick : Option UInt64) :
    (owing since).init (.new firstTick, []) :=
  ⟨⟨firstTick, rfl⟩, rfl⟩

/-- A new scheduler is woken, so its first poll is to come. -/
theorem schedulerInv_init {since : Since} {p : Scheduler × List UInt64} (h : (owing since).init p) :
    SchedulerInv since p := by
  obtain ⟨s, xs⟩ := p
  obtain ⟨⟨firstTick, rfl⟩, h⟩ := h
  obtain rfl : xs = [] := h
  exact ⟨by simp [Scheduler.new], by simp, by simp [Scheduler.new],
    fun _ _ => by simp [Scheduler.Covers, Scheduler.new]⟩

/-- Once the time is loaded the timer is no later. -/
theorem adjustSleep_le {sleep : Option UInt64} {nextTick : UInt64} (h : nextTick ≠ noTick) :
    ∃ d, adjustSleep sleep (decodeNextTick nextTick) = some d ∧ d ≤ nextTick := by
  unfold decodeNextTick
  rw [if_pos h]
  cases sleep with
  | none => exact ⟨nextTick, rfl, UInt64.le_refl nextTick⟩
  | some d =>
    simp only [adjustSleep]
    split
    · exact ⟨nextTick, rfl, UInt64.le_refl nextTick⟩
    · exact ⟨d, rfl, by grind⟩

/-- What is timely for a time is timely for a later one. -/
theorem Scheduler.Covers.mono {s : Scheduler} {x y : UInt64} (h : s.Covers x) (hle : x ≤ y) :
    s.Covers y := by
  rcases h with ⟨d, hd, hdx⟩ | h | ⟨z, hz, hzx⟩
  · exact .inl ⟨d, hd, UInt64.le_trans hdx hle⟩
  · exact .inr (.inl h)
  · exact .inr (.inr ⟨z, hz, UInt64.le_trans hzx hle⟩)

section Step

variable {since : Since} {s t : Scheduler} {xs : List UInt64}

/-- A step that changes neither the time nor the calls, nor the timer once it is lowered. -/
theorem SchedulerInv.of_eq (hi : SchedulerInv since (s, xs)) (hn : t.nextTick = s.nextTick)
    (hw : t.waking = s.waking) (hd : t.phase.unloaded = false → t.deadline = s.deadline)
    (hreg : t.registered = true ∨ t.woken = true ∨ t.phase = .entered ∨ t.phase = .finished)
    (hphase : t.phase.unloaded = false → s.phase.unloaded = false)
    (hwoken : t.phase.unloaded = false → s.woken = true → t.woken = true) :
    SchedulerInv since (t, xs) where
  waker := hreg
  lowered x hx := hn ▸ hi.lowered x hx
  waking hs x hx := hi.waking hs x (hw ▸ hx)
  covers hu hne := by
    dsimp only at hne ⊢
    rw [hn] at hne ⊢
    rcases hi.covers (hphase hu) hne with h | h | h
    · exact .inl (hd hu ▸ h)
    · exact .inr (.inl (hwoken hu h))
    · exact .inr (.inr (hw ▸ h))

/-- A step into a phase in which the timer need not be lowered yet. -/
theorem SchedulerInv.of_unloaded (hi : SchedulerInv since (s, xs)) (hn : t.nextTick = s.nextTick)
    (hw : t.waking = s.waking) (hu : t.phase.unloaded = true)
    (hreg : t.registered = true ∨ t.woken = true ∨ t.phase = .entered ∨ t.phase = .finished) :
    SchedulerInv since (t, xs) := by
  have hnot : t.phase.unloaded ≠ false := by rw [hu]; exact Bool.noConfusion
  exact hi.of_eq hn hw (fun h => absurd h hnot) hreg (fun h => absurd h hnot)
    fun h => absurd h hnot

/-- Fewer calls are owed a tick. -/
theorem SchedulerInv.shrink {ys : List UInt64} (hi : SchedulerInv since (s, xs)) (hys : ys ⊆ xs)
    (hw : since = .returned → ∀ x ∈ s.waking, x ∈ ys) : SchedulerInv since (s, ys) where
  waker := hi.waker
  lowered x hx := hi.lowered x (hys hx)
  waking := hw
  covers := hi.covers

/-- A call that lowers the time is about to wake the task. -/
theorem schedulerInv_hasten {x : UInt64} (hi : SchedulerInv since (s, xs))
    (hx : x ≠ noTick ∨ s.nextTick ≠ noTick) : SchedulerInv since (s.hasten x, x :: xs) where
  waker := hi.waker
  lowered y hy := by
    refine ⟨fetchMin_le_iff.2 ?_, fun h => ?_⟩
    · rcases List.mem_cons.1 hy with rfl | hy
      · exact .inr (UInt64.le_refl y)
      · exact .inl (hi.lowered y hy).1
    · obtain ⟨hn, hx'⟩ := of_fetchMin_eq_noTick h
      exact hx.elim (absurd hx') (absurd hn)
  waking hs y hy := by
    simp only [Scheduler.hasten] at hy
    split at hy
    · rcases List.mem_cons.1 hy with rfl | hy
      · exact List.mem_cons_self
      · exact List.mem_cons_of_mem _ (hi.waking hs y hy)
    · exact List.mem_cons_of_mem _ (hi.waking hs y hy)
  covers hu hne := by
    by_cases hlt : x < s.nextTick
    · exact .inr (.inr ⟨x, by simp [Scheduler.hasten, hlt],
        by simp [Scheduler.hasten, fetchMin, hlt]⟩)
    · have hsame : s.hasten x = s := by simp [Scheduler.hasten, fetchMin, hlt]
      dsimp only at hu hne ⊢
      rw [hsame] at hu hne ⊢
      exact hi.covers hu hne

/-- A wake-up reaches the task, or finds it about to register its waker. -/
theorem schedulerInv_wake {x : UInt64} (hi : SchedulerInv since (s, xs)) :
    SchedulerInv since ({ s with waking := s.waking.erase x }.wake, xs) where
  waker := by
    rcases hi.waker with h | h | h | h <;> simp_all [Scheduler.wake]
  lowered := hi.lowered
  waking hs y hy := hi.waking hs y (List.mem_of_mem_erase hy)
  covers hu _ := by
    refine .inr (.inl ?_)
    rcases hi.waker with h | h | h | h <;> simp_all [Scheduler.wake, Phase.unloaded]

/-- Dropping the handle only wakes the task. -/
theorem schedulerInv_drop (hi : SchedulerInv since (s, xs)) :
    SchedulerInv since ({ s with dropped := true }.wake, xs) := by
  refine hi.of_eq rfl rfl (fun _ => rfl) ?_ (fun h => h) fun _ h => ?_
  · rcases hi.waker with h | h | h | h <;> simp_all [Scheduler.wake]
  · simp [Scheduler.wake, h]

/-- Once the time is loaded the timer is no later. -/
theorem schedulerInv_load (hi : SchedulerInv since (s, xs)) (hp : s.phase = .registered)
    {sleep : Option UInt64} (hsleep : adjustSleep s.sleep (decodeNextTick s.nextTick) = sleep)
    {phase : Phase} (hphase : phase = .loaded ∨ phase = .idle) :
    SchedulerInv since ({ s with sleep, phase }, xs) where
  waker := by
    rcases hi.waker with h | h | h | h <;> simp_all
  lowered := hi.lowered
  waking := hi.waking
  covers _ hne := by
    obtain ⟨d, hd, hle⟩ := adjustSleep_le hne
    refine .inl ⟨d, ?_, hle⟩
    rcases hphase with rfl | rfl <;> exact hsleep.symm.trans hd

/-- A result is stored over the time, and the timer will be reset to it. -/
theorem schedulerInv_store {next : Option UInt64} (hi : SchedulerInv since (s, xs))
    (hp : s.phase = .returned next)
    (hok : ∀ x ∈ xs, next.getD noTick ≤ x ∧ next.getD noTick ≠ noTick) :
    SchedulerInv since ({ s with nextTick := next.getD noTick, phase := .stored next }, xs) where
  waker := by simpa [hp] using hi.waker
  lowered := hok
  waking := hi.waking
  covers _ hne := by
    refine .inl ?_
    cases next with
    | none => exact absurd rfl hne
    | some next => exact ⟨next, rfl, UInt64.le_refl next⟩

/-- A step keeps the invariant, with every call it leaves or adds. -/
theorem schedulerInv_asked {a : SchedulerAction} (hi : SchedulerInv since (s, xs))
    (hok : InTime (s, xs) a) (h : s.Outcome a t) : SchedulerInv since (t, asked xs a) := by
  have hwaker : s.registered = true ∨ s.woken = true ∨ s.phase = .entered ∨
      s.phase = .finished := hi.waker
  cases h with
  | hasten => exact schedulerInv_hasten hi hok
  | wake => exact schedulerInv_wake hi
  | fire => exact hi.of_eq rfl rfl (fun _ => rfl) (.inr (.inl rfl)) (fun h => h) fun _ _ => rfl
  | drop => exact schedulerInv_drop hi
  | poll => exact hi.of_unloaded rfl rfl rfl (.inr (.inr (.inl rfl)))
  | register => exact hi.of_unloaded rfl rfl rfl (.inl rfl)
  | pollDropped | fail => exact hi.of_unloaded rfl rfl rfl (.inr (.inr (.inr rfl)))
  | load registered sleep => exact schedulerInv_load hi registered sleep (.inl rfl)
  | loadUnset registered sleep => exact schedulerInv_load hi registered sleep (.inr rfl)
  | check before | checkPending before | «return» before | reset before =>
    exact hi.of_eq rfl rfl (fun _ => by simp [Scheduler.deadline, before])
      (by simpa [before] using hwaker) (fun _ => by simp [before, Phase.unloaded]) fun _ h => h
  | store returned =>
    replace hok : ∀ x ∈ xs, s.phase.result ≤ x ∧ s.phase.result ≠ noTick := hok
    rw [returned] at hok
    exact schedulerInv_store hi returned hok

/-- A callback is started by polling the timer. -/
theorem Scheduler.Outcome.exists_check {a : SchedulerAction} (h : s.Outcome a t)
    (ht : t.phase = .ticking) (hs : s.phase ≠ .ticking) :
    ∃ now, a = .check now ∧ t.waking = s.waking := by
  cases h with
  | check => exact ⟨_, rfl, rfl⟩
  | hasten | wake | fire | drop => exact absurd ht hs
  | _ => cases ht

/-- A step keeps the invariant, with the calls that are owed a tick after it. -/
theorem schedulerInv_step {p q : Scheduler × List UInt64} {a : SchedulerAction}
    (hi : SchedulerInv since p) (hok : InTime p a) (h : (owing since).step p a = some q) :
    SchedulerInv since q := by
  obtain ⟨s, xs⟩ := p
  obtain ⟨t, ys⟩ := q
  obtain ⟨hst, hys⟩ := Machine.withHistory_step h
  have hout : s.Outcome a t := Scheduler.outcome_of_step hst
  replace hys : ys = owed since xs s a t := hys
  have hkeep := schedulerInv_asked hi hok hout
  subst hys
  unfold owed
  split
  · rename_i hstart
    obtain ⟨now, rfl, hw⟩ := hout.exists_check hstart.1 hstart.2
    cases since with
    | lowered => exact hkeep.shrink (by simp) (by simp)
    | returned => exact hkeep.shrink (fun x hx => hi.waking rfl x hx) (fun _ x hx => hw ▸ hx)
  · exact hkeep

end Step

/-- In a run that stores its results in time no call of `hasten` is lost : once `poll` has
returned and its wake-ups are served, the time is no later than what the call asked for and
the timer is set to no later than that, unless a call that asks for an earlier time is about
to wake the task. -/
theorem hasten_not_lost (since : Since) {p : Scheduler × List UInt64}
    (hp : (owing since).Reachable InTime p) (hidle : p.1.phase = .idle)
    (hserved : p.1.woken = false) {x : UInt64} (hx : x ∈ p.2) :
    p.1.nextTick ≤ x ∧ (p.1.Armed x ∨ ∃ y ∈ p.1.waking, y ≤ x) := by
  have hi : SchedulerInv since p :=
    hp.invariant (fun _ h => schedulerInv_init h) fun _ _ _ hi hok h => schedulerInv_step hi hok h
  obtain ⟨hle, hne⟩ := hi.lowered x hx
  refine ⟨hle, ?_⟩
  have hcovers := hi.covers (by rw [hidle]; rfl) hne
  rcases hcovers.mono hle with ⟨d, hd, hle⟩ | hwoken | hflight
  · exact .inl ⟨d, by simpa [Scheduler.deadline, hidle] using hd, hle⟩
  · rw [hserved] at hwoken
    cases hwoken
  · exact .inr hflight

/-- A scheduler without a tick that is hastened to 5 before its first poll. -/
def hastenedRun : List SchedulerAction :=
  [.hasten 5, .wake 5, .poll, .register, .load, .check 3]

/-- The state after that run. -/
def hastenedState : Scheduler :=
  { Scheduler.new none with
    nextTick := 5, registered := true, woken := false, sleep := some 5 }

/-- A call of `hasten` that comes before the first poll. -/
theorem hasten_not_lost_before_poll :
    hastenedState.nextTick ≤ 5 ∧
      (hastenedState.Armed 5 ∨ ∃ y ∈ hastenedState.waking, y ≤ 5) := by
  have hrun : (owing .returned).exec (.new none, []) hastenedRun = some (hastenedState, [5]) := by
    decide
  have hguard : (owing .returned).Guarded InTime (.new none, []) hastenedRun := by
    decide
  exact hasten_not_lost .returned (.exec (.init (owing_init _ none)) hrun hguard) rfl rfl
    List.mem_cons_self

/-- A call of `hasten` to 7 that comes while the callback runs, which then returns 100. -/
def lostRun : List SchedulerAction :=
  [.poll, .register, .load, .check 5, .hasten 7, .return (some 100), .store, .reset]

/-- The call is lost, whichever of the two it is reckoned from : nothing is outstanding, and
the next tick is at 100. -/
theorem hasten_lost :
    ∃ p, (owing .lowered).Reachable Machine.always p ∧
      (owing .returned).Reachable Machine.always p ∧ p.1.phase = .idle ∧ p.1.woken = false ∧
        p.1.waking = [] ∧ 7 ∈ p.2 ∧ ¬ p.1.nextTick ≤ 7 := by
  have hrun (since : Since) : (owing since).Reachable Machine.always
      ({ Scheduler.new (some 100) with registered := true, woken := false }, [7]) := by
    have hexec : (owing since).exec (.new (some 5), []) lostRun =
        some ({ Scheduler.new (some 100) with registered := true, woken := false }, [7]) := by
      cases since <;> decide
    exact .exec (.init (owing_init since (some 5))) hexec (Machine.guarded_always _ _)
  exact ⟨_, hrun .lowered, hrun .returned, rfl, rfl, rfl, List.mem_cons_self, by decide⟩

end Websub
