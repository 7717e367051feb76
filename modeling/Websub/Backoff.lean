import Websub.Content
import Websub.Lib.Machine

/-!
# Exponential backoff

`util/backoff.rs`. A `Backoff` is a timer with the number of seconds it waits for. It has no
timer before the first `increase`, and `reset` only clears the number.

`increase` sets a new deadline, counted from now where the number was zero, and from the
previous deadline otherwise. So it waits as long as it says exactly where it is increased at
the moment its previous wait is over (`waits_iff`). After a `reset` nothing but the waker of
the timer tells it from a new one.

Instants are milliseconds, which is the precision of the timer.
-/

namespace Websub

open Machines Transducers

variable {W : Type}

/-! ## The code -/

/-- `tokio::time::Sleep`, for wakers of type `W`. -/
structure Sleep (W : Type) where
  deadline : ℕ
  /-- The waker of the last poll. -/
  waker : Option W
  /-- It was polled at its deadline or later. -/
  elapsed : Bool
deriving DecidableEq

namespace Sleep

/-- `tokio::time::sleep`. -/
def new (deadline : ℕ) : Sleep W where
  deadline
  waker := none
  elapsed := false

/-- `Sleep::reset`. -/
def reset (sleep : Sleep W) (deadline : ℕ) : Sleep W :=
  { sleep with deadline, elapsed := false }

/-- `Sleep::poll`. -/
def poll (sleep : Sleep W) (now : ℕ) (waker : W) : Poll Unit × Sleep W :=
  if sleep.elapsed ∨ sleep.deadline ≤ now then
    (.ready (), { sleep with waker := some waker, elapsed := true })
  else (.pending, { sleep with waker := some waker })

end Sleep

/-- `Inner`. -/
structure Inner (W : Type) where
  sleep : Sleep W
  wait : UInt64
deriving DecidableEq

/-- `Backoff`. -/
structure Backoff (W : Type) where
  inner : Option (Inner W)
deriving DecidableEq

/-- `INITIAL_WAIT`. -/
def initialWait : UInt64 := 1

/-- What the code takes from the build and the platform. -/
structure Clock where
  /-- Arithmetic that overflows panics, instead of wrapping. -/
  overflowChecks : Bool
  /-- The last `Instant`. -/
  maxInstant : ℕ

namespace Clock

variable (clock : Clock)

/-- An instant that many seconds later, which panics if there is none. -/
def addSecs (instant : ℕ) (secs : UInt64) : Option ℕ :=
  if instant + 1000 * secs.toNat ≤ clock.maxInstant then some (instant + 1000 * secs.toNat)
  else none

/-- `*wait *= 2`. -/
def double (wait : UInt64) : Option UInt64 :=
  if clock.overflowChecks ∧ 2 ^ 64 ≤ 2 * wait.toNat then none else some (wait * 2)

end Clock

namespace Backoff

/-- `Backoff::new`. -/
def new : Backoff W :=
  ⟨none⟩

variable (clock : Clock) (now : ℕ) (waker : W) (b : Backoff W)

/-- `Backoff::wait_secs`. -/
def waitSecs : UInt64 :=
  match b.inner with
  | none => 0
  | some inner => inner.wait

/-- `Backoff::increase`, `none` if it panics. -/
def increase : Option (Backoff W) :=
  match b.inner with
  | some ⟨sleep, wait⟩ => do
    let (wait, currentDeadline) ←
      if wait = 0 then some (initialWait, now)
      else (clock.double wait).map fun wait => (wait, sleep.deadline)
    let deadline ← clock.addSecs currentDeadline wait
    some ⟨some ⟨sleep.reset deadline, wait⟩⟩
  | none => do
    let deadline ← clock.addSecs now initialWait
    -- register the task
    some ⟨some ⟨((Sleep.new deadline).poll now waker).2, initialWait⟩⟩

/-- `Backoff::reset`. -/
def reset : Backoff W :=
  match b.inner with
  | some inner => ⟨some { inner with wait := 0 }⟩
  | none => b

/-- `Backoff::poll`. -/
def poll : Poll Unit × Backoff W :=
  match b.inner with
  | some inner =>
    if inner.wait > 0 then
      ((inner.sleep.poll now waker).1,
        ⟨some { inner with sleep := (inner.sleep.poll now waker).2 }⟩)
    else (.ready (), b)
  | none => (.ready (), b)

end Backoff

/-- A call of a `Backoff`. -/
inductive BackoffCall (W : Type)
  | increase (waker : W)
  | reset
  | poll (waker : W)
deriving DecidableEq

/-- What a call at some time returns and leaves. -/
def Backoff.call (clock : Clock) (now : ℕ) (b : Backoff W) :
    BackoffCall W → Option (Poll Unit × Backoff W)
  | .increase waker => (b.increase clock now waker).map fun b => (.ready (), b)
  | .reset => some (.ready (), b.reset)
  | .poll waker => some (b.poll now waker)

/-! ## What a call does -/

namespace Sleep

variable {sleep : Sleep W} {now later : ℕ} {waker waker' : W}

theorem poll_fst_eq_pending_iff :
    (sleep.poll now waker).1 = .pending ↔ sleep.elapsed = false ∧ now < sleep.deadline := by
  unfold poll
  split
  · rename_i h
    refine iff_of_false nofun fun hnot => ?_
    rcases h with h | h
    · rw [hnot.1] at h
      cases h
    · omega
  · rename_i h
    rw [not_or, Bool.not_eq_true] at h
    exact iff_of_true rfl ⟨h.1, not_le.1 h.2⟩

/-- Every poll registers its waker. -/
theorem poll_snd (sleep : Sleep W) (now : ℕ) (waker : W) : (sleep.poll now waker).2 =
    ⟨sleep.deadline, some waker, sleep.elapsed || decide (sleep.deadline ≤ now)⟩ := by
  unfold poll
  split
  · rename_i h
    have : (sleep.elapsed || decide (sleep.deadline ≤ now)) = true := by simpa using h
    rw [this]
  · rename_i h
    have : (sleep.elapsed || decide (sleep.deadline ≤ now)) = false := by simpa using h
    rw [this]
    rw [not_or, Bool.not_eq_true] at h
    rw [h.1]

end Sleep

theorem toNat_double_eq_iff {clock : Clock} {secs wait : UInt64}
    (h : clock.double secs = some wait) :
    wait.toNat = 2 * secs.toNat ↔ 2 * secs.toNat < 2 ^ 64 := by
  unfold Clock.double at h
  rw [Option.ite_none_left_eq_some, Option.some_inj] at h
  rw [← h.2, UInt64.toNat_mul]
  have := secs.toNat_lt
  change secs.toNat * 2 % 2 ^ 64 = _ ↔ _
  omega

/-- What a backoff waits for. -/
structure Waiting where
  secs : UInt64
  deadline : ℕ
  elapsed : Bool

namespace Backoff

variable {clock : Clock} {b b' : Backoff W} {now later : ℕ} {waker waker' : W}

/-- What the backoff waits for, which is nothing where the number of seconds is zero. -/
def waiting (b : Backoff W) : Option Waiting :=
  match b.inner with
  | some inner =>
    if inner.wait = 0 then none
    else some ⟨inner.wait, inner.sleep.deadline, inner.sleep.elapsed⟩
  | none => none

/-- The number of seconds after an increase. -/
def nextWait (clock : Clock) (b : Backoff W) : Option UInt64 :=
  match b.waiting with
  | some w => clock.double w.secs
  | none => some initialWait

/-- The instant from which an increase counts the next deadline. -/
def base (b : Backoff W) (now : ℕ) : ℕ :=
  match b.waiting with
  | some w => w.deadline
  | none => now

/-- The waker of the timer after an increase. -/
def registered (b : Backoff W) (waker : W) : Option W :=
  match b.inner with
  | some inner => inner.sleep.waker
  | none => some waker

theorem waiting_of_wait {inner : Inner W} (h : inner.wait ≠ 0) :
    (⟨some inner⟩ : Backoff W).waiting =
      some ⟨inner.wait, inner.sleep.deadline, inner.sleep.elapsed⟩ :=
  if_neg h

/-- A backoff waits, as its timer says, or its number of seconds is zero. -/
theorem waitSecs_cases (b : Backoff W) :
    (∃ inner, b = ⟨some inner⟩ ∧ inner.wait ≠ 0) ∨ b.waitSecs = 0 ∧ b.waiting = none := by
  obtain ⟨inner⟩ := b
  cases inner with
  | none => exact .inr ⟨rfl, rfl⟩
  | some inner =>
    by_cases hwait : inner.wait = 0
    · exact .inr ⟨hwait, if_pos hwait⟩
    · exact .inl ⟨inner, rfl, hwait⟩

theorem waitSecs_eq (b : Backoff W) :
    b.waitSecs = match b.waiting with
      | some w => w.secs
      | none => 0 := by
  obtain ⟨inner, rfl, hwait⟩ | ⟨hwait, hnone⟩ := b.waitSecs_cases
  · rw [waiting_of_wait hwait]
    rfl
  · rw [hwait, hnone]

/-- The timer of the first increase has not elapsed. -/
theorem poll_new (now : ℕ) (waker : W) {deadline : ℕ}
    (h : clock.addSecs now initialWait = some deadline) :
    ((Sleep.new deadline).poll now waker).2 = ⟨deadline, some waker, false⟩ := by
  unfold Clock.addSecs at h
  rw [Option.ite_none_right_eq_some, Option.some_inj] at h
  have hlater : ¬ deadline ≤ now := by
    rw [← h.2]
    simp [initialWait]
  simp [Sleep.poll, Sleep.new, hlater]

/-- An increase, whatever its branch. -/
theorem increase_eq (clock : Clock) (now : ℕ) (waker : W) (b : Backoff W) :
    b.increase clock now waker = (b.nextWait clock).bind fun wait =>
      (clock.addSecs (b.base now) wait).map fun deadline =>
        ⟨some ⟨⟨deadline, b.registered waker, false⟩, wait⟩⟩ := by
  obtain ⟨inner⟩ := b
  cases inner with
  | none =>
    cases hadd : clock.addSecs now initialWait with
    | none => simp [increase, nextWait, base, waiting, hadd]
    | some deadline =>
      simp [increase, nextWait, base, waiting, registered, hadd, poll_new now waker hadd]
  | some inner =>
    by_cases hwait : inner.wait = 0
    · simp [increase, nextWait, base, waiting, registered, hwait, Sleep.reset,
        Option.map_eq_bind]
    · cases hdouble : clock.double inner.wait <;>
        simp [increase, nextWait, base, waiting, registered, hwait, Sleep.reset,
          Option.map_eq_bind, hdouble]

theorem poll_of_wait {inner : Inner W} (h : inner.wait ≠ 0) (now : ℕ) (waker : W) :
    (⟨some inner⟩ : Backoff W).poll now waker = ((inner.sleep.poll now waker).1,
      ⟨some ⟨(inner.sleep.poll now waker).2, inner.wait⟩⟩) :=
  if_pos (UInt64.pos_iff_ne_zero.2 h)

/-- A backoff that does not wait is ready. -/
theorem poll_of_waitSecs (h : b.waitSecs = 0) (now : ℕ) (waker : W) :
    b.poll now waker = (.ready (), b) := by
  obtain ⟨inner⟩ := b
  cases inner with
  | none => rfl
  | some inner =>
    have hwait : inner.wait = 0 := h
    refine if_neg ?_
    rw [hwait]
    decide

/-- A poll tells whether the wait is over, and remembers it. -/
theorem waiting_poll (b : Backoff W) (now : ℕ) (waker : W) :
    (b.poll now waker).2.waiting =
      b.waiting.map fun w => { w with elapsed := w.elapsed || decide (w.deadline ≤ now) } := by
  obtain ⟨inner, rfl, hwait⟩ | ⟨hwait, hnone⟩ := b.waitSecs_cases
  · rw [poll_of_wait hwait, waiting_of_wait hwait, Sleep.poll_snd]
    exact if_neg hwait
  · rw [poll_of_waitSecs hwait, hnone]
    rfl

theorem poll_eq_pending_iff : (b.poll now waker).1 = .pending ↔
    ∃ w, b.waiting = some w ∧ w.elapsed = false ∧ now < w.deadline := by
  obtain ⟨inner, rfl, hwait⟩ | ⟨hwait, hnone⟩ := b.waitSecs_cases
  · rw [poll_of_wait hwait, waiting_of_wait hwait, Sleep.poll_fst_eq_pending_iff]
    simp
  · rw [poll_of_waitSecs hwait, hnone]
    simp

/-- A poll changes nothing that a later poll can tell. -/
theorem poll_poll_eq_pending_iff (h : now ≤ later) :
    ((b.poll now waker).2.poll later waker').1 = .pending ↔
      (b.poll later waker').1 = .pending := by
  rw [poll_eq_pending_iff, poll_eq_pending_iff, waiting_poll]
  cases b.waiting with
  | none => rfl
  | some w =>
    simp only [Option.map_some, Option.some_inj, ↓existsAndEq, true_and, Bool.or_eq_false_iff,
      decide_eq_false_iff_not]
    refine ⟨fun h => ⟨h.1.1, h.2⟩, fun h => ⟨⟨h.1, ?_⟩, h.2⟩⟩
    omega

theorem waitSecs_poll (b : Backoff W) (now : ℕ) (waker : W) :
    (b.poll now waker).2.waitSecs = b.waitSecs := by
  rw [waitSecs_eq, waitSecs_eq, waiting_poll]
  cases b.waiting <;> rfl

theorem waiting_reset (b : Backoff W) : b.reset.waiting = none := by
  obtain ⟨inner⟩ := b
  cases inner <;> rfl

theorem secs_of_waiting {w : Waiting} (h : b.waiting = some w) :
    w.secs ≠ 0 ∧ b.waitSecs = w.secs := by
  obtain ⟨inner, rfl, hwait⟩ | ⟨-, hnone⟩ := b.waitSecs_cases
  · rw [waiting_of_wait hwait] at h
    obtain rfl := Option.some_inj.1 h
    exact ⟨hwait, rfl⟩
  · rw [hnone] at h
    cases h

/-- After an increase the backoff is pending until the new deadline. -/
theorem poll_armed_eq_pending_iff {deadline : ℕ} {registered : Option W} {wait : UInt64} :
    ((⟨some ⟨⟨deadline, registered, false⟩, wait⟩⟩ : Backoff W).poll now waker).1 = .pending ↔
      wait ≠ 0 ∧ now < deadline := by
  by_cases hwait : wait = 0
  · have hzero : (⟨some ⟨⟨deadline, registered, false⟩, wait⟩⟩ : Backoff W).waitSecs = 0 := hwait
    rw [poll_of_waitSecs hzero]
    simp [hwait]
  · rw [poll_of_wait hwait, Sleep.poll_fst_eq_pending_iff]
    simp [hwait]

/-- The waits that an increase may leave. -/
theorem increase_eq_some_iff : b.increase clock now waker = some b' ↔
    ∃ wait, b.nextWait clock = some wait ∧
      b.base now + 1000 * wait.toNat ≤ clock.maxInstant ∧
      b' = ⟨some ⟨⟨b.base now + 1000 * wait.toNat, b.registered waker, false⟩, wait⟩⟩ := by
  rw [increase_eq, Option.bind_eq_some_iff]
  refine exists_congr fun wait => and_congr_right fun _ => ?_
  unfold Clock.addSecs
  rw [Option.map_eq_some_iff]
  simp [eq_comm, and_assoc]

/-- The number of seconds after an increase, where it can be doubled. -/
theorem exists_nextWait (clock : Clock) (h : 2 * b.waitSecs.toNat < 2 ^ 64) :
    ∃ wait, b.nextWait clock = some wait ∧
      wait.toNat = if b.waitSecs = 0 then 1 else 2 * b.waitSecs.toNat := by
  unfold nextWait
  cases hw : b.waiting with
  | none =>
    have hzero : b.waitSecs = 0 := by rw [waitSecs_eq, hw]
    exact ⟨initialWait, rfl, by rw [if_pos hzero]; rfl⟩
  | some w =>
    obtain ⟨hsecs, hwait⟩ := secs_of_waiting hw
    rw [hwait] at h ⊢
    have hdouble : clock.double w.secs = some (w.secs * 2) := if_neg fun hover => by omega
    exact ⟨_, hdouble, by rw [if_neg hsecs, toNat_double_eq_iff hdouble]; exact h⟩

end Backoff

/-! ## Runs -/

/-- A backoff, and the time of its last call. -/
structure TimedBackoff (W : Type) where
  backoff : Backoff W
  now : ℕ
deriving DecidableEq

/-- The calls of a backoff, at times that do not decrease. -/
def backoffCalls (W : Type) (clock : Clock) : Machine (TimedBackoff W) (ℕ × BackoffCall W) where
  init s := s.backoff = .new
  step s a :=
    if s.now ≤ a.1 then (s.backoff.call clock a.1 a.2).map fun r => ⟨r.2, a.1⟩ else none

/-- When the last increase was made, and the seconds before it. -/
structure Increase where
  time : ℕ
  previous : UInt64
deriving DecidableEq

/-- The last increase after a call, if there was no reset since. -/
def Increase.next (last : Option Increase) (s : TimedBackoff W) :
    ℕ × BackoffCall W → TimedBackoff W → Option Increase
  | (now, .increase _), _ => some ⟨now, s.backoff.waitSecs⟩
  | (_, .reset), _ => none
  | (_, .poll _), _ => last

/-- A backoff with its last increase. -/
def increasing (W : Type) (clock : Clock) :
    Machine (TimedBackoff W × Option Increase) (ℕ × BackoffCall W) :=
  (backoffCalls W clock).withHistory (fun _ => none) Increase.next

/-- The last increase has doubled the number of seconds, or set it to one, and the backoff is
pending until that time has passed since, and then ready. -/
def Waits (p : TimedBackoff W × Option Increase) : Prop :=
  ∀ i ∈ p.2,
    p.1.backoff.waitSecs.toNat = (if i.previous = 0 then 1 else 2 * i.previous.toNat) ∧
    ∀ later ≥ p.1.now, ∀ waker, (p.1.backoff.poll later waker).1 = .pending ↔
      later < i.time + 1000 * p.1.backoff.waitSecs.toNat

/-- A backoff that waits is increased, if it does not panic, at the end of its wait, and the
number of seconds can be doubled. -/
def AtDeadline (clock : Clock) (p : TimedBackoff W × Option Increase) (a : ℕ × BackoffCall W) :
    Prop :=
  match a.2 with
  | .increase _ => ((increasing W clock).step p a).isSome → ∀ w ∈ p.1.backoff.waiting,
    a.1 = w.deadline ∧ 2 * w.secs.toNat < 2 ^ 64
  | _ => True

section Waits

variable {clock : Clock} {p q : TimedBackoff W × Option Increase}

/-- The step of an increase that does not panic. -/
theorem exists_of_step_increase {now : ℕ} {waker : W}
    (h : (increasing W clock).step p (now, .increase waker) = some q) :
    ∃ b' wait, p.1.backoff.nextWait clock = some wait ∧
      b' = ⟨some ⟨⟨p.1.backoff.base now + 1000 * wait.toNat, p.1.backoff.registered waker, false⟩,
        wait⟩⟩ ∧ q = (⟨b', now⟩, some ⟨now, p.1.backoff.waitSecs⟩) := by
  obtain ⟨s, last⟩ := p
  obtain ⟨t, last'⟩ := q
  obtain ⟨hstep, hlast⟩ := Machine.withHistory_step h
  replace hstep : (backoffCalls W clock).step s (now, .increase waker) = some t := hstep
  obtain rfl : last' = some ⟨now, s.backoff.waitSecs⟩ := hlast
  unfold backoffCalls at hstep
  rw [Option.ite_none_right_eq_some, Option.map_eq_some_iff] at hstep
  obtain ⟨-, r, hr, rfl⟩ := hstep
  obtain ⟨b', hb', rfl⟩ := Option.map_eq_some_iff.1 hr
  obtain ⟨wait, hnext, -, rfl⟩ := Backoff.increase_eq_some_iff.1 hb'
  exact ⟨_, wait, hnext, rfl, rfl⟩

/-- Times counted from two instants are the same only if the instants are. -/
theorem count_from_iff {base now : ℕ} (secs : ℕ) (h : 0 < secs) :
    (∀ later ≥ now, later < base + secs ↔ later < now + secs) ↔ now = base := by
  constructor
  · intro hall
    have hlate := hall (now + secs) (Nat.le_add_right _ _)
    have hearly := hall (max now (base + secs)) (le_max_left _ _)
    omega
  · rintro rfl later -
    rfl

/-- What an increase leaves. -/
theorem waits_increase {now : ℕ} {waker : W}
    (h : (increasing W clock).step p (now, .increase waker) = some q) :
    Waits q ↔ ∀ w ∈ p.1.backoff.waiting, now = w.deadline ∧ 2 * w.secs.toNat < 2 ^ 64 := by
  obtain ⟨b', wait, hnext, rfl, rfl⟩ := exists_of_step_increase h
  have hwaits : Waits (⟨⟨some ⟨⟨p.1.backoff.base now + 1000 * wait.toNat,
      p.1.backoff.registered waker, false⟩, wait⟩⟩, now⟩, some ⟨now, p.1.backoff.waitSecs⟩) ↔
      wait.toNat = (if p.1.backoff.waitSecs = 0 then 1 else 2 * p.1.backoff.waitSecs.toNat) ∧
        ∀ later ≥ now, (wait ≠ 0 ∧ later < p.1.backoff.base now + 1000 * wait.toNat) ↔
          later < now + 1000 * wait.toNat := by
    unfold Waits
    simp only [Option.mem_def, Option.some_inj, forall_eq', Backoff.poll_armed_eq_pending_iff]
    refine and_congr_right fun _ => forall₂_congr fun later _ => ?_
    exact ⟨fun h => h waker, fun h _ => h⟩
  rw [hwaits]
  unfold Backoff.nextWait at hnext
  unfold Backoff.base
  cases hw : p.1.backoff.waiting with
  | none =>
    rw [hw] at hnext
    obtain rfl := Option.some_inj.1 hnext
    have hzero : p.1.backoff.waitSecs = 0 := by rw [Backoff.waitSecs_eq, hw]
    refine iff_of_true ⟨by rw [if_pos hzero]; rfl, fun later _ => ?_⟩ nofun
    exact and_iff_right (by decide)
  | some w =>
    rw [hw] at hnext
    obtain ⟨hsecs, hwaitSecs⟩ := Backoff.secs_of_waiting hw
    have hpos : w.secs.toNat ≠ 0 := fun h => hsecs (UInt64.toNat_inj.1 h)
    have hne : 0 < wait.toNat → wait ≠ 0 := by
      rintro hwait rfl
      exact absurd hwait (lt_irrefl _)
    simp only [Option.mem_def, Option.some_inj, forall_eq']
    rw [hwaitSecs, if_neg hsecs, ← toNat_double_eq_iff hnext, and_comm]
    refine and_congr_left fun hdouble => ?_
    rw [← count_from_iff (1000 * wait.toNat) (by omega)]
    refine forall₂_congr fun later _ => ?_
    rw [and_iff_right (hne (by omega))]

/-- What a step leaves, where the backoff waits as it says. -/
theorem waits_step_iff {a : ℕ × BackoffCall W} (hp : Waits p) :
    (∀ q, (increasing W clock).step p a = some q → Waits q) ↔ AtDeadline clock p a := by
  obtain ⟨now, c⟩ := a
  cases c with
  | increase waker =>
    unfold AtDeadline
    cases hstep : (increasing W clock).step p (now, .increase waker) with
    | none => simp
    | some q => simp [waits_increase hstep]
  | reset =>
    refine iff_of_true (fun q h => ?_) trivial
    obtain ⟨-, hlast⟩ := Machine.withHistory_step h
    intro i hi
    rw [hlast] at hi
    cases hi
  | poll waker =>
    refine iff_of_true (fun q h => ?_) trivial
    obtain ⟨s, last⟩ := p
    obtain ⟨t, last'⟩ := q
    obtain ⟨hstep, hlast⟩ := Machine.withHistory_step h
    replace hstep : (backoffCalls W clock).step s (now, .poll waker) = some t := hstep
    obtain rfl : last' = last := hlast
    unfold backoffCalls at hstep
    rw [Option.ite_none_right_eq_some] at hstep
    obtain ⟨hnow, hcall⟩ := hstep
    obtain rfl := Option.some_inj.1 hcall
    intro i hi
    obtain ⟨hsecs, hpending⟩ := hp i hi
    refine ⟨(congrArg UInt64.toNat (s.backoff.waitSecs_poll now waker)).trans hsecs,
      fun later hlater waker' => ?_⟩
    change ((s.backoff.poll now waker).2.poll later waker').1 = .pending ↔
      later < i.time + 1000 * (s.backoff.poll now waker).2.waitSecs.toNat
    rw [Backoff.waitSecs_poll, Backoff.poll_poll_eq_pending_iff hlater]
    exact hpending later (hnow.trans hlater) waker'

end Waits

/-- The replies of a backoff to calls at some times, with the seconds it waits for then, up to a
panic. -/
def backoffReplies (W : Type) (clock : Clock) :
    Transducer (Option (Backoff W)) (ℕ × BackoffCall W) (Option (Poll Unit × UInt64)) where
  step
    | none, _ => (none, none)
    | some b, (now, c) =>
      match b.call clock now c with
      | none => (none, none)
      | some (reply, b) => (some (reply, b.waitSecs), some b)

/-- Backoffs that wait for the same reply the same, and then wait for the same. -/
theorem call_congr (clock : Clock) (now : ℕ) (c : BackoffCall W) {b b' : Backoff W}
    (h : b.waiting = b'.waiting) :
    (b.call clock now c).map (fun r => (r.1, r.2.waiting)) =
      (b'.call clock now c).map fun r => (r.1, r.2.waiting) := by
  cases c with
  | increase waker =>
    have hnext : b.nextWait clock = b'.nextWait clock := by
      unfold Backoff.nextWait
      rw [h]
    have hbase : b.base now = b'.base now := by
      unfold Backoff.base
      rw [h]
    unfold Backoff.call
    simp only [Backoff.increase_eq, hnext, hbase]
    cases b'.nextWait clock with
    | none => rfl
    | some wait =>
      simp only [Option.bind_some]
      cases clock.addSecs (b'.base now) wait with
      | none => rfl
      | some deadline => rfl
  | reset => simp only [Backoff.call, Option.map_some, Backoff.waiting_reset]
  | poll waker =>
    have hreply : (b.poll now waker).1 = (b'.poll now waker).1 := by
      have hpending : (b.poll now waker).1 = .pending ↔ (b'.poll now waker).1 = .pending := by
        rw [Backoff.poll_eq_pending_iff, Backoff.poll_eq_pending_iff, h]
      cases hb : (b.poll now waker).1 with
      | ready u =>
        cases hb' : (b'.poll now waker).1 with
        | ready u' => rfl
        | pending => cases hb.symm.trans (hpending.2 hb')
      | pending => exact (hpending.1 hb).symm
    simp only [Backoff.call, Option.map_some, hreply, Backoff.waiting_poll, h]

theorem step_congr (clock : Clock) (a : ℕ × BackoffCall W) {o o' : Option (Backoff W)}
    (h : o.map Backoff.waiting = o'.map Backoff.waiting) :
    ((backoffReplies W clock).step o a).1 = ((backoffReplies W clock).step o' a).1 ∧
      ((backoffReplies W clock).step o a).2.map Backoff.waiting =
        ((backoffReplies W clock).step o' a).2.map Backoff.waiting := by
  cases o with
  | none =>
    cases o' with
    | none => exact ⟨rfl, rfl⟩
    | some b' => cases h
  | some b =>
    cases o' with
    | none => cases h
    | some b' =>
      obtain ⟨now, c⟩ := a
      have hcall := call_congr clock now c (Option.some_inj.1 h)
      unfold backoffReplies
      cases hb : b.call clock now c with
      | none =>
        rw [hb, Option.map_none, eq_comm, Option.map_eq_none_iff] at hcall
        simp only [hb, hcall, and_self]
      | some r =>
        rw [hb, Option.map_some, eq_comm, Option.map_eq_some_iff] at hcall
        obtain ⟨r', hb', hr⟩ := hcall
        obtain ⟨hreply, hwaiting⟩ := Prod.mk.inj hr
        simp only [hb, hb', Backoff.waitSecs_eq, hreply, hwaiting, Option.map_some, and_self]

/-- Backoffs that wait for the same reply the same to all calls. -/
theorem replies_congr (clock : Clock) {b b' : Backoff W} (h : b.waiting = b'.waiting)
    (calls : List (ℕ × BackoffCall W)) :
    ((backoffReplies W clock).run (some b) calls).1 =
      ((backoffReplies W clock).run (some b') calls).1 := by
  have hsame : (some b).map Backoff.waiting = (some b').map Backoff.waiting := congrArg some h
  have hrun := Transducer.run_related (Q := Eq)
    (R := fun o o' : Option (Backoff W) => o.map Backoff.waiting = o'.map Backoff.waiting)
    (fun o o' a ho (_ : True) => step_congr clock a ho) hsame
    (fun _ _ => trivial : ∀ a ∈ calls, True)
  rw [List.forall₂_eq_eq_eq] at hrun
  exact hrun.1

/-- For all calls at times that do not decrease, a backoff waits as long as it says, after each
increase, exactly if each increase of a backoff that waits is made at the end of its wait. And
after a reset it replies as a new one to all calls. -/
theorem waits_iff (W : Type) (clock : Clock) (start : ℕ) (calls : List (ℕ × BackoffCall W)) :
    ((increasing W clock).Guarded (fun p a => ∀ q, (increasing W clock).step p a = some q → Waits q)
        (⟨.new, start⟩, none) calls ↔
      (increasing W clock).Guarded (AtDeadline clock) (⟨.new, start⟩, none) calls) ∧
    ∀ b : Backoff W, ((backoffReplies W clock).run (some b.reset) calls).1 =
      ((backoffReplies W clock).run (some .new) calls).1 := by
  have hstart : Waits ((⟨.new, start⟩, none) : TimedBackoff W × Option Increase) := by
    intro i hi
    cases hi
  refine ⟨Machine.guarded_congr (I := Waits) (fun _ _ hp => waits_step_iff hp) ?_ hstart,
    fun b => ?_⟩
  · exact fun _ _ q _ hq h => hq q h
  · exact replies_congr clock b.waiting_reset calls

/-- A clock that does not get to its end. -/
def exampleClock : Clock :=
  ⟨true, 10 ^ 12⟩

/-- An increase four seconds after the first wait is over. -/
def lateCalls : List (ℕ × BackoffCall Unit) :=
  [(0, .increase ()), (1000, .poll ()), (5000, .increase ())]

/-- The backoff says that it waits for two seconds, and is ready at once. -/
theorem not_waits_late :
    ∃ p, (increasing Unit exampleClock).exec (⟨.new, 0⟩, none) lateCalls = some p ∧
      p.1.backoff.waitSecs = 2 ∧ (p.1.backoff.poll 5000 ()).1 = .ready () ∧ ¬ Waits p := by
  refine ⟨(⟨⟨some ⟨⟨3000, some (), false⟩, 2⟩⟩, 5000⟩, some ⟨5000, 1⟩), by decide, rfl, by decide,
    fun h => ?_⟩
  have hpending := (h ⟨5000, 1⟩ rfl).2 5000 le_rfl ()
  exact absurd (hpending.2 (by decide)) (by decide)

end Websub
