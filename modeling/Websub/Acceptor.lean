import Websub.Backoff

/-!
# Accepting connections

`Subscriber::accept_all`. It waits for its backoff, and then takes what the incoming stream
has. Each socket resets the backoff. An error increases it, or is returned if the backoff
already waits for as long as it may, and either ends the call.

The number of seconds it waits for is given by the number of errors since the last socket
(`waitAfter`). So the errors that are returned are those with eight or more before them, and
the number is never doubled beyond what it can hold (`budgeted`).

A call that returns `Pending` must have given its waker to the incoming stream or to the
timer. An increase gives the timer a waker only where it makes it. Later ones rely on the
poll at the start of the call, which leaves the timer alone after a reset (`arranged_iff`).
With one waker only this does no harm (`arranged_of_waker`).
-/

namespace Websub

open Machines

variable {W S E : Type}

/-! ## The code -/

/-- A call of `accept_all`, with what the incoming stream has then : sockets `S`, and after them
`Pending`, its end or an error. -/
structure AcceptCall (W S E : Type) where
  now : ℕ
  waker : W
  sockets : List S
  last : Poll (Option E)
deriving DecidableEq

/-- What a call of `accept_all` returns, leaves and has done. -/
structure Acceptance (W S E : Type) where
  reply : Poll (Except E Unit)
  backoff : Backoff W
  /-- The sockets whose connections it has spawned. -/
  accepted : List S
  /-- The last reply of the incoming stream, if it was polled. -/
  last : Option (Poll (Option E))

/-- `MAX_BACKOFF`. -/
def maxBackoff : UInt64 := (2 : UInt64) <<< (6 : UInt64)

/-- The loop of `accept_all` after the last socket. -/
def acceptLast (clock : Clock) (call : AcceptCall W S E) (b : Backoff W) :
    Option (Poll (Except E Unit) × Backoff W) :=
  match call.last with
  | .pending => some (.pending, b)
  | .ready none => some (.ready (.ok ()), b)
  | .ready (some e) =>
    if b.waitSecs ≥ maxBackoff then some (.ready (.error e), b)
    -- try to recover from the error
    else (b.increase clock call.now call.waker).map fun b => (.pending, b)

/-- The loop of `accept_all`. -/
def acceptLoop (clock : Clock) (call : AcceptCall W S E) :
    List S → Backoff W → Option (Acceptance W S E)
  | [], b => (acceptLast clock call b).map fun p => ⟨p.1, p.2, [], some call.last⟩
  | sock :: sockets, b =>
    (acceptLoop clock call sockets b.reset).map fun r => { r with accepted := sock :: r.accepted }

/-- `Subscriber::accept_all`, `none` if it panics. -/
def acceptAll (clock : Clock) (call : AcceptCall W S E) (b : Backoff W) :
    Option (Acceptance W S E) :=
  match b.poll call.now call.waker with
  | (.pending, b) => some ⟨.pending, b, [], none⟩
  | (.ready (), b) => acceptLoop clock call call.sockets b

/-! ## What a call does -/

/-- The backoff after the sockets. -/
def Backoff.accepting (b : Backoff W) : List S → Backoff W
  | [] => b
  | _ :: _ => b.reset

/-- The backoff of a call that has accepted these sockets. -/
def AcceptCall.backoffAfter (call : AcceptCall W S E) (b : Backoff W) (accepted : List S) :
    Backoff W :=
  (b.poll call.now call.waker).2.accepting accepted

namespace Acceptance

/-- The error that ended the loop, if one did. -/
def error (r : Acceptance W S E) : Option E :=
  match r.last with
  | some (.ready e) => e
  | _ => none

/-- The errors since the last socket, before the one of this call. -/
def errorsBefore (r : Acceptance W S E) (errors : ℕ) : ℕ :=
  if r.accepted = [] then errors else 0

/-- The errors since the last socket, with the one of this call. -/
def errorsAfter (r : Acceptance W S E) (errors : ℕ) : ℕ :=
  if r.error.isSome then r.errorsBefore errors + 1 else r.errorsBefore errors

end Acceptance

/-- The number of seconds to wait for after so many errors. -/
def waitAfter : ℕ → ℕ
  | 0 => 0
  | errors + 1 => 2 ^ min errors 7

section Calls

variable {clock : Clock} {call : AcceptCall W S E} {b b' : Backoff W} {r : Acceptance W S E}

theorem reset_reset (b : Backoff W) : b.reset.reset = b.reset := by
  obtain ⟨inner⟩ := b
  cases inner <;> rfl

theorem accepting_reset (b : Backoff W) (sockets : List S) :
    b.reset.accepting sockets = b.reset := by
  cases sockets with
  | nil => rfl
  | cons sock sockets => exact reset_reset b

/-- The loop is its end, after the sockets. -/
theorem acceptLoop_eq (clock : Clock) (call : AcceptCall W S E) (sockets : List S)
    (b : Backoff W) : acceptLoop clock call sockets b =
      (acceptLast clock call (b.accepting sockets)).map fun p =>
        ⟨p.1, p.2, sockets, some call.last⟩ := by
  induction sockets generalizing b with
  | nil => rfl
  | cons sock sockets ih =>
    unfold acceptLoop
    rw [ih, accepting_reset, Option.map_map]
    rfl

/-- What a call may do. -/
inductive AcceptOutcome (clock : Clock) (call : AcceptCall W S E) (b : Backoff W) :
    Acceptance W S E → Prop
  /-- The backoff is not over, and the incoming stream is not polled. -/
  | waiting : (b.poll call.now call.waker).1 = .pending →
    AcceptOutcome clock call b ⟨.pending, (b.poll call.now call.waker).2, [], none⟩
  /-- The incoming stream is pending. -/
  | pending : (b.poll call.now call.waker).1 = .ready () → call.last = .pending →
    AcceptOutcome clock call b
      ⟨.pending, call.backoffAfter b call.sockets, call.sockets, some .pending⟩
  /-- The incoming stream is over. -/
  | ended : (b.poll call.now call.waker).1 = .ready () → call.last = .ready none →
    AcceptOutcome clock call b
      ⟨.ready (.ok ()), call.backoffAfter b call.sockets, call.sockets, some (.ready none)⟩
  /-- An error is returned. -/
  | surfaced (e : E) : (b.poll call.now call.waker).1 = .ready () →
    call.last = .ready (some e) → (call.backoffAfter b call.sockets).waitSecs ≥ maxBackoff →
    AcceptOutcome clock call b
      ⟨.ready (.error e), call.backoffAfter b call.sockets, call.sockets, some (.ready (some e))⟩
  /-- An error increases the backoff. -/
  | swallowed (e : E) (b' : Backoff W) : (b.poll call.now call.waker).1 = .ready () →
    call.last = .ready (some e) → ¬ (call.backoffAfter b call.sockets).waitSecs ≥ maxBackoff →
    (call.backoffAfter b call.sockets).increase clock call.now call.waker = some b' →
    AcceptOutcome clock call b ⟨.pending, b', call.sockets, some (.ready (some e))⟩

/-- A call that waits panics nowhere. -/
theorem acceptAll_of_pending (h : (b.poll call.now call.waker).1 = .pending) :
    acceptAll clock call b = some ⟨.pending, (b.poll call.now call.waker).2, [], none⟩ := by
  unfold acceptAll
  split
  · rename_i hpoll
    rw [hpoll]
  · rename_i hpoll
    rw [hpoll] at h
    cases h

theorem acceptAll_of_ready (h : (b.poll call.now call.waker).1 = .ready ()) :
    acceptAll clock call b = (acceptLast clock call (call.backoffAfter b call.sockets)).map
      fun p => ⟨p.1, p.2, call.sockets, some call.last⟩ := by
  unfold acceptAll
  split
  · rename_i hpoll
    rw [hpoll] at h
    cases h
  · rename_i b' hpoll
    rw [acceptLoop_eq]
    unfold AcceptCall.backoffAfter
    rw [hpoll]

theorem acceptAll_eq_some_iff :
    acceptAll clock call b = some r ↔ AcceptOutcome clock call b r := by
  constructor
  · intro h
    cases hpoll : (b.poll call.now call.waker).1 with
    | pending =>
      rw [acceptAll_of_pending hpoll] at h
      obtain rfl := Option.some_inj.1 h
      exact .waiting hpoll
    | ready =>
      rw [acceptAll_of_ready hpoll] at h
      obtain ⟨⟨reply, b'⟩, hlast, rfl⟩ := Option.map_eq_some_iff.1 h
      unfold acceptLast at hlast
      split at hlast
      · rename_i hcall
        obtain ⟨rfl, rfl⟩ := Prod.mk.inj (Option.some_inj.1 hlast)
        rw [hcall]
        exact .pending hpoll hcall
      · rename_i hcall
        obtain ⟨rfl, rfl⟩ := Prod.mk.inj (Option.some_inj.1 hlast)
        rw [hcall]
        exact .ended hpoll hcall
      · rename_i e hcall
        rw [hcall]
        split at hlast
        · rename_i hfull
          obtain ⟨rfl, rfl⟩ := Prod.mk.inj (Option.some_inj.1 hlast)
          exact .surfaced e hpoll hcall hfull
        · rename_i hfull
          obtain ⟨b'', hinc, hpair⟩ := Option.map_eq_some_iff.1 hlast
          obtain ⟨rfl, rfl⟩ := Prod.mk.inj hpair
          exact .swallowed e b'' hpoll hcall hfull hinc
  · intro h
    cases h with
    | waiting hpoll => exact acceptAll_of_pending hpoll
    | pending hpoll hcall | ended hpoll hcall =>
      rw [acceptAll_of_ready hpoll]
      unfold acceptLast
      rw [hcall]
      rfl
    | surfaced e hpoll hcall hfull =>
      rw [acceptAll_of_ready hpoll]
      unfold acceptLast
      simp only [hcall, if_pos hfull, Option.map_some]
    | swallowed e b' hpoll hcall hfull hinc =>
      rw [acceptAll_of_ready hpoll]
      unfold acceptLast
      simp only [hcall, if_neg hfull, hinc, Option.map_some]

end Calls

/-! ## The budget of errors -/

/-- The calls of the acceptor, at times that do not decrease. -/
def acceptor (W S E : Type) (clock : Clock) : Machine (TimedBackoff W) (AcceptCall W S E) where
  init s := s.backoff = .new
  step s call :=
    if s.now ≤ call.now then
      (acceptAll clock call s.backoff).map fun r => ⟨r.backoff, call.now⟩
    else none

/-- The errors since the last socket after a call. -/
def nextErrors (clock : Clock) (errors : ℕ) (s : TimedBackoff W) (call : AcceptCall W S E)
    (_ : TimedBackoff W) : ℕ :=
  match acceptAll clock call s.backoff with
  | some r => r.errorsAfter errors
  | none => errors

/-- The acceptor, with the number of errors since the last socket or the start. -/
def countingErrors (W S E : Type) (clock : Clock) :
    Machine (TimedBackoff W × ℕ) (AcceptCall W S E) :=
  (acceptor W S E clock).withHistory (fun _ => 0) (nextErrors clock)

/-- What a call does with an error, after so many since the last socket. -/
structure WithinBudget (clock : Clock) (call : AcceptCall W S E) (errors : ℕ) (b : Backoff W)
    (r : Acceptance W S E) : Prop where
  /-- It is returned exactly if eight or more came before it. -/
  surfaced : ∀ e, r.error = some e →
    (r.reply = .ready (.error e) ↔ 8 ≤ r.errorsBefore errors)
  /-- Otherwise it increases the backoff once. -/
  swallowed : r.error.isSome → r.errorsBefore errors < 8 → r.reply = .pending ∧
    (call.backoffAfter b r.accepted).increase clock call.now call.waker = some r.backoff
  /-- Nothing else is returned as an error. -/
  only : ∀ e, r.reply = .ready (.error e) → r.error = some e
  /-- Nothing else increases the backoff. -/
  kept : r.error = none ∨ 8 ≤ r.errorsBefore errors → r.backoff = call.backoffAfter b r.accepted

/-- The acceptor waits for zero seconds or a power of two, can double it, and keeps to its
budget in the next call, whatever it is. -/
structure Budgeted (S E : Type) (clock : Clock) (p : TimedBackoff W × ℕ) : Prop where
  wait : p.1.backoff.waitSecs = 0 ∨ ∃ k ≤ 7, p.1.backoff.waitSecs.toNat = 2 ^ k
  /-- A call panics only at the end of the clock. -/
  doubled : ∀ call : AcceptCall W S E, acceptAll clock call p.1.backoff = none →
    clock.maxInstant < (call.backoffAfter p.1.backoff call.sockets).base call.now + 128000
  call : ∀ (call : AcceptCall W S E) r, acceptAll clock call p.1.backoff = some r →
    WithinBudget clock call p.2 p.1.backoff r
  /-- A socket makes the number of seconds zero, and an error after it one. -/
  reset : ∀ (call : AcceptCall W S E) r, acceptAll clock call p.1.backoff = some r →
    r.accepted ≠ [] → r.backoff.waitSecs.toNat = if r.error.isSome then 1 else 0

section Budget

variable {clock : Clock} {call : AcceptCall W S E} {b b' : Backoff W} {r : Acceptance W S E}
variable {errors : ℕ}

theorem waitAfter_eq (errors : ℕ) :
    waitAfter errors = 0 ∨ ∃ k ≤ 7, waitAfter errors = 2 ^ k := by
  cases errors with
  | zero => exact .inl rfl
  | succ n => exact .inr ⟨min n 7, min_le_right _ _, rfl⟩

theorem waitAfter_le (errors : ℕ) : waitAfter errors ≤ 128 := by
  obtain h | ⟨k, hk, h⟩ := waitAfter_eq errors
  · omega
  · rw [h]
    exact Nat.pow_le_pow_right (by decide) hk

theorem waitAfter_eq_zero_iff : waitAfter errors = 0 ↔ errors = 0 := by
  cases errors <;> simp [waitAfter]

/-- The maximum is reached after eight errors. -/
theorem le_waitAfter_iff : 128 ≤ waitAfter errors ↔ 8 ≤ errors := by
  cases errors with
  | zero => decide
  | succ n =>
    change 2 ^ 7 ≤ 2 ^ min n 7 ↔ _
    rw [Nat.pow_le_pow_iff_right (by decide)]
    omega

/-- The next error doubles it, up to the maximum. -/
theorem waitAfter_succ (h : errors < 8) :
    waitAfter (errors + 1) = if errors = 0 then 1 else 2 * waitAfter errors := by
  cases errors with
  | zero => rfl
  | succ n =>
    have hn : min (n + 1) 7 = min n 7 + 1 := by omega
    rw [if_neg n.succ_ne_zero]
    change 2 ^ min (n + 1) 7 = 2 * 2 ^ min n 7
    rw [hn, pow_succ, mul_comm]

theorem waitAfter_succ_of_le (h : 8 ≤ errors) : waitAfter (errors + 1) = waitAfter errors := by
  cases errors with
  | zero => omega
  | succ n =>
    have hn : min (n + 1) 7 = min n 7 := by omega
    change 2 ^ min (n + 1) 7 = 2 ^ min n 7
    rw [hn]

theorem waitSecs_ge_iff (hb : b.waitSecs.toNat = waitAfter errors) :
    b.waitSecs ≥ maxBackoff ↔ 8 ≤ errors := by
  change maxBackoff.toNat ≤ b.waitSecs.toNat ↔ _
  rw [hb]
  exact le_waitAfter_iff

theorem waitSecs_reset (b : Backoff W) : b.reset.waitSecs = 0 := by
  rw [Backoff.waitSecs_eq, Backoff.waiting_reset]

theorem waitSecs_backoffAfter (call : AcceptCall W S E)
    (hb : b.waitSecs.toNat = waitAfter errors) (accepted : List S) :
    (call.backoffAfter b accepted).waitSecs.toNat =
      waitAfter (if accepted = [] then errors else 0) := by
  cases accepted with
  | nil => exact (congrArg UInt64.toNat (b.waitSecs_poll _ _)).trans hb
  | cons sock sockets => exact congrArg UInt64.toNat (waitSecs_reset _)

/-- An increase within the budget. -/
theorem exists_nextWait_budget (clock : Clock) (hb : b.waitSecs.toNat = waitAfter errors)
    (h : errors < 8) :
    ∃ wait, b.nextWait clock = some wait ∧ wait.toNat = waitAfter (errors + 1) := by
  have hle := waitAfter_le errors
  obtain ⟨wait, hnext, hwait⟩ := Backoff.exists_nextWait (b := b) clock (by omega)
  refine ⟨wait, hnext, ?_⟩
  have hzero : b.waitSecs = 0 ↔ errors = 0 := by
    rw [← waitAfter_eq_zero_iff, ← hb]
    exact UInt64.toNat_inj.symm
  rw [hwait, waitAfter_succ h, ← hb]
  simp only [hzero]

theorem waitSecs_increase (hb : b.waitSecs.toNat = waitAfter errors) (h : errors < 8)
    {now : ℕ} {waker : W} (hinc : b.increase clock now waker = some b') :
    b'.waitSecs.toNat = waitAfter (errors + 1) := by
  obtain ⟨wait, hnext, -, rfl⟩ := Backoff.increase_eq_some_iff.1 hinc
  obtain ⟨wait', hnext', hwait⟩ := exists_nextWait_budget clock hb h
  obtain rfl := Option.some_inj.1 (hnext.symm.trans hnext')
  exact hwait

/-- What a call does with its error. -/
theorem withinBudget (hb : b.waitSecs.toNat = waitAfter errors)
    (h : AcceptOutcome clock call b r) : WithinBudget clock call errors b r := by
  have hfull := waitSecs_ge_iff (waitSecs_backoffAfter call hb call.sockets)
  cases h with
  | waiting _ | pending _ _ | ended _ _ =>
    refine ⟨fun e he => ?_, fun he => ?_, fun e he => ?_, fun _ => rfl⟩
    · cases he
    · cases he
    · cases he
  | surfaced e _ _ hge =>
    refine ⟨fun e' he => ?_, fun _ hlt => ?_, fun e' he => ?_, fun _ => rfl⟩
    · obtain rfl : e = e' := Option.some_inj.1 he
      exact iff_of_true rfl (hfull.1 hge)
    · exact absurd (hfull.1 hge) (not_le.2 hlt)
    · cases he
      rfl
  | swallowed e b' _ _ hlt hinc =>
    refine ⟨fun e' _ => iff_of_false ?_ (mt hfull.2 hlt), fun _ _ => ⟨rfl, hinc⟩, fun e' he => ?_,
      fun hkept => ?_⟩
    · intro he
      cases he
    · cases he
    · rcases hkept with hnone | hge
      · cases hnone
      · exact absurd (hfull.2 hge) hlt

/-- What a call leaves. -/
theorem waitSecs_of_acceptOutcome (hb : b.waitSecs.toNat = waitAfter errors)
    (h : AcceptOutcome clock call b r) :
    r.backoff.waitSecs.toNat = waitAfter (r.errorsAfter errors) := by
  have hafter := waitSecs_backoffAfter call hb call.sockets
  cases h with
  | waiting _ => exact (congrArg UInt64.toNat (b.waitSecs_poll _ _)).trans hb
  | pending _ _ | ended _ _ => exact hafter
  | surfaced e _ _ hge =>
    have hfull := (waitSecs_ge_iff hafter).1 hge
    exact hafter.trans (waitAfter_succ_of_le hfull).symm
  | swallowed e b' _ _ hlt hinc =>
    have hfew := not_le.1 (mt (waitSecs_ge_iff hafter).2 hlt)
    exact waitSecs_increase hafter hfew hinc

/-- A call panics only at the end of the clock. -/
theorem maxInstant_lt_of_acceptAll (hb : b.waitSecs.toNat = waitAfter errors)
    (h : acceptAll clock call b = none) :
    clock.maxInstant < (call.backoffAfter b call.sockets).base call.now + 128000 := by
  have hafter := waitSecs_backoffAfter call hb call.sockets
  cases hpoll : (b.poll call.now call.waker).1 with
  | pending =>
    rw [acceptAll_of_pending hpoll] at h
    cases h
  | ready =>
    rw [acceptAll_of_ready hpoll, Option.map_eq_none_iff] at h
    unfold acceptLast at h
    split at h
    · cases h
    · cases h
    · split at h
      · cases h
      · rename_i hlt
        have hfew := not_le.1 (mt (waitSecs_ge_iff hafter).2 hlt)
        obtain ⟨wait, hnext, hwait⟩ := exists_nextWait_budget clock hafter hfew
        by_contra hle
        have hbound := waitAfter_le ((if call.sockets = [] then errors else 0) + 1)
        have hclock : (call.backoffAfter b call.sockets).base call.now + 1000 * wait.toNat ≤
            clock.maxInstant := by omega
        rw [Backoff.increase_eq_some_iff.2 ⟨wait, hnext, hclock, rfl⟩] at h
        cases h

theorem budgeted_of_wait {p : TimedBackoff W × ℕ}
    (hb : p.1.backoff.waitSecs.toNat = waitAfter p.2) : Budgeted S E clock p where
  wait := by
    refine (waitAfter_eq p.2).imp (fun h => ?_) fun h => ?_
    · exact UInt64.toNat_inj.1 (hb.trans h)
    · rwa [hb]
  doubled _ h := maxInstant_lt_of_acceptAll hb h
  call _ _ h := withinBudget hb (acceptAll_eq_some_iff.1 h)
  reset _ r h hsockets := by
    have hleft := waitSecs_of_acceptOutcome hb (acceptAll_eq_some_iff.1 h)
    have hbefore : r.errorsBefore p.2 = 0 := if_neg hsockets
    rw [hleft]
    unfold Acceptance.errorsAfter
    rw [hbefore]
    split <;> rfl

theorem exists_of_step_acceptor {s t : TimedBackoff W}
    (h : (acceptor W S E clock).step s call = some t) :
    ∃ r, acceptAll clock call s.backoff = some r ∧ t = ⟨r.backoff, call.now⟩ := by
  unfold acceptor at h
  rw [Option.ite_none_right_eq_some, Option.map_eq_some_iff] at h
  obtain ⟨-, r, hr, ht⟩ := h
  exact ⟨r, hr, ht.symm⟩

/-- A step keeps the number of seconds at what the errors say. -/
theorem waitSecs_step {p q : TimedBackoff W × ℕ} (hb : p.1.backoff.waitSecs.toNat = waitAfter p.2)
    (h : (countingErrors W S E clock).step p call = some q) :
    q.1.backoff.waitSecs.toNat = waitAfter q.2 := by
  obtain ⟨hstep, herrors⟩ := Machine.withHistory_step h
  obtain ⟨r, hr, hq⟩ := exists_of_step_acceptor hstep
  unfold nextErrors at herrors
  rw [hr] at herrors
  rw [hq, herrors]
  exact waitSecs_of_acceptOutcome hb (acceptAll_eq_some_iff.1 hr)

end Budget

/-- In every run of the acceptor, whatever the incoming stream replies. -/
theorem budgeted (W S E : Type) (clock : Clock) (p : TimedBackoff W × ℕ)
    (h : (countingErrors W S E clock).Reachable Machine.always p) : Budgeted S E clock p := by
  have hwait : p.1.backoff.waitSecs.toNat = waitAfter p.2 := by
    refine h.invariant (I := fun q => q.1.backoff.waitSecs.toNat = waitAfter q.2)
      (fun s hs => ?_) fun _ _ _ hb _ hstep => waitSecs_step hb hstep
    obtain ⟨⟨b, now⟩, errors⟩ := s
    obtain ⟨hnew, hzero⟩ := hs
    obtain rfl : b = .new := hnew
    obtain rfl : errors = 0 := hzero
    rfl
  exact budgeted_of_wait hwait

/-- After a first error. -/
theorem budgeted_example :
    Budgeted ℕ ℕ exampleClock (⟨⟨some ⟨⟨1000, some (), false⟩, 1⟩⟩, 0⟩, 1) := by
  have hstep : (countingErrors Unit ℕ ℕ exampleClock).step (⟨.new, 0⟩, 0)
      ⟨0, (), [], .ready (some 7)⟩ =
        some (⟨⟨some ⟨⟨1000, some (), false⟩, 1⟩⟩, 0⟩, 1) := by decide
  have hinit : (countingErrors Unit ℕ ℕ exampleClock).init (⟨.new, 0⟩, 0) := ⟨rfl, rfl⟩
  exact budgeted Unit ℕ ℕ exampleClock _ (.step (.init hinit) trivial hstep)

/-! ## The waker of the caller -/

/-- A call that is pending has its waker with the incoming stream, or with the timer, which is
armed. -/
def Arranged (waker : W) (r : Acceptance W S E) : Prop :=
  r.reply = .pending → r.last = some .pending ∨ ∃ inner, r.backoff.inner = some inner ∧
    inner.sleep.waker = some waker ∧ inner.sleep.elapsed = false

/-- If a backoff that is reset has a timer, and the incoming stream fails before the end of the
clock, then the timer knows the waker. -/
def KnowsWaker (clock : Clock) (b : Backoff W) (call : AcceptCall W S E) : Prop :=
  ∀ e, call.last = .ready (some e) → b.waitSecs = 0 →
    (clock.addSecs call.now initialWait).isSome →
      ∀ inner ∈ b.inner, inner.sleep.waker = some call.waker

section Arranged

variable {clock : Clock} {call : AcceptCall W S E} {b b' : Backoff W} {now : ℕ} {waker : W}

theorem registered_accepting (b : Backoff W) (sockets : List S) (waker : W) :
    (b.accepting sockets).registered waker = b.registered waker := by
  obtain ⟨inner⟩ := b
  cases sockets with
  | nil => rfl
  | cons sock sockets => cases inner <;> rfl

theorem registered_eq_some_iff :
    b.registered waker = some waker ↔ ∀ inner ∈ b.inner, inner.sleep.waker = some waker := by
  obtain ⟨inner⟩ := b
  cases inner <;> simp [Backoff.registered]

/-- The poll at the start of the call gives the timer its waker, unless the backoff is reset. -/
theorem registered_backoffAfter (call : AcceptCall W S E) (b : Backoff W) (accepted : List S) :
    (call.backoffAfter b accepted).registered call.waker = some call.waker ↔
      (b.waitSecs = 0 → ∀ inner ∈ b.inner, inner.sleep.waker = some call.waker) := by
  unfold AcceptCall.backoffAfter
  rw [registered_accepting]
  obtain ⟨inner, rfl, hwait⟩ | ⟨hwait, -⟩ := b.waitSecs_cases
  · rw [Backoff.poll_of_wait hwait]
    refine iff_of_true ?_ fun hzero => absurd hzero hwait
    unfold Backoff.registered
    rw [Sleep.poll_snd]
  · rw [Backoff.poll_of_waitSecs hwait, registered_eq_some_iff]
    exact ⟨fun h _ => h, fun h => h hwait⟩

/-- A timer that is pending has the waker of its poll. -/
theorem exists_of_poll_pending (h : (b.poll now waker).1 = .pending) :
    ∃ inner, (b.poll now waker).2.inner = some inner ∧ inner.sleep.waker = some waker ∧
      inner.sleep.elapsed = false := by
  obtain ⟨inner, rfl, hwait⟩ | ⟨hwait, -⟩ := b.waitSecs_cases
  · rw [Backoff.poll_of_wait hwait, Sleep.poll_fst_eq_pending_iff] at h
    rw [Backoff.poll_of_wait hwait]
    refine ⟨_, rfl, ?_, ?_⟩
    · rw [Sleep.poll_snd]
    · rw [Sleep.poll_snd]
      simp [h.1, h.2]
  · rw [Backoff.poll_of_waitSecs hwait] at h
    cases h

/-- The timer after an increase has the waker that is registered. -/
theorem exists_of_increase_iff (h : b.increase clock now waker = some b') :
    (∃ inner, b'.inner = some inner ∧ inner.sleep.waker = some waker ∧
      inner.sleep.elapsed = false) ↔ b.registered waker = some waker := by
  obtain ⟨wait, -, -, rfl⟩ := Backoff.increase_eq_some_iff.1 h
  simp

/-- A reset backoff can be increased before the end of the clock. -/
theorem isSome_increase (h : b.waitSecs = 0) (now : ℕ) (waker : W) :
    (b.increase clock now waker).isSome = (clock.addSecs now initialWait).isSome := by
  obtain ⟨inner, rfl, hwait⟩ | ⟨-, hnone⟩ := b.waitSecs_cases
  · exact absurd h hwait
  · rw [Backoff.increase_eq]
    unfold Backoff.nextWait Backoff.base
    rw [hnone]
    exact Option.isSome_map

theorem waitSecs_backoffAfter_eq_zero (call : AcceptCall W S E) (h : b.waitSecs = 0)
    (accepted : List S) : (call.backoffAfter b accepted).waitSecs = 0 := by
  have hb : b.waitSecs.toNat = waitAfter 0 := congrArg UInt64.toNat h
  have hafter := waitSecs_backoffAfter call hb accepted
  rw [ite_self] at hafter
  exact UInt64.toNat_inj.1 hafter

/-- What a call has arranged. -/
theorem arranged_call_iff :
    (∀ r, acceptAll clock call b = some r → Arranged call.waker r) ↔ KnowsWaker clock b call := by
  have hregistered := registered_backoffAfter call b call.sockets
  constructor
  · intro hall e hcall hwait hclock
    have hpoll := Backoff.poll_of_waitSecs hwait call.now call.waker
    have hzero := waitSecs_backoffAfter_eq_zero call hwait call.sockets
    rw [← isSome_increase hzero call.now call.waker] at hclock
    obtain ⟨b', hinc⟩ := Option.isSome_iff_exists.1 hclock
    have hfull : ¬ (call.backoffAfter b call.sockets).waitSecs ≥ maxBackoff := by
      rw [hzero]
      decide
    have hcalled := acceptAll_eq_some_iff.2
      (.swallowed e b' (congrArg Prod.fst hpoll) hcall hfull hinc)
    rcases hall _ hcalled rfl with hpending | htimer
    · cases hpending
    · exact hregistered.1 ((exists_of_increase_iff hinc).1 htimer) hwait
  · intro hknows r hr hreply
    cases acceptAll_eq_some_iff.1 hr with
    | waiting hpoll => exact .inr (exists_of_poll_pending hpoll)
    | pending _ _ => exact .inl rfl
    | ended _ _ => cases hreply
    | surfaced e _ _ _ => cases hreply
    | swallowed e b' hpoll hcall _ hinc =>
      refine .inr ((exists_of_increase_iff hinc).2 (hregistered.2 fun hwait => ?_))
      have hzero := waitSecs_backoffAfter_eq_zero call hwait call.sockets
      refine hknows e hcall hwait ?_
      rw [← isSome_increase hzero call.now call.waker, hinc, Option.isSome_some]

/-- A timer that knows the waker of a call knows it after the call. -/
theorem registered_of_acceptOutcome {r : Acceptance W S E}
    (hb : b.registered call.waker = some call.waker) (h : AcceptOutcome clock call b r) :
    r.backoff.registered call.waker = some call.waker := by
  have hafter (accepted : List S) :=
    (registered_backoffAfter call b accepted).2 fun _ => registered_eq_some_iff.1 hb
  cases h with
  | waiting _ => exact hafter []
  | pending _ _ | ended _ _ | surfaced _ _ _ _ => exact hafter call.sockets
  | swallowed e b' _ _ _ hinc =>
    obtain ⟨inner, hinner, hwaker, -⟩ := (exists_of_increase_iff hinc).2 (hafter call.sockets)
    refine registered_eq_some_iff.2 fun inner' hinner' => ?_
    obtain rfl := Option.some_inj.1 (hinner.symm.trans hinner')
    exact hwaker

/-- A task that calls with one waker only is always woken. -/
theorem arranged_of_waker (start : ℕ) {calls : List (AcceptCall W S E)}
    (h : ∀ call ∈ calls, call.waker = waker) :
    (acceptor W S E clock).Guarded
      (fun s call => ∀ r, acceptAll clock call s.backoff = some r → Arranged call.waker r)
      ⟨.new, start⟩ calls := by
  refine Machine.guarded_of_forall (I := fun s => s.backoff.registered waker = some waker)
    (P := fun call => call.waker = waker) ?_ ?_ rfl h
  · rintro s call hs rfl
    exact arranged_call_iff.2 fun _ _ _ _ => registered_eq_some_iff.1 hs
  · rintro s call t hs rfl hstep
    obtain ⟨r, hr, rfl⟩ := exists_of_step_acceptor hstep
    exact registered_of_acceptOutcome hs (acceptAll_eq_some_iff.1 hr)

end Arranged

/-- In a run of the acceptor each call that is pending has arranged for its waker to be woken
exactly if the timer knows the waker where it is not polled and an error needs it. -/
theorem arranged_iff (W S E : Type) (clock : Clock) (start : ℕ)
    (calls : List (AcceptCall W S E)) :
    (acceptor W S E clock).Guarded
        (fun s call => ∀ r, acceptAll clock call s.backoff = some r → Arranged call.waker r)
        ⟨.new, start⟩ calls ↔
      (acceptor W S E clock).Guarded (fun s call => KnowsWaker clock s.backoff call)
        ⟨.new, start⟩ calls :=
  Machine.guarded_congr (I := fun _ => True) (fun _ _ _ => arranged_call_iff)
    (fun _ _ _ _ _ _ => trivial) trivial

/-- A task has an error, and then a socket. -/
def firstTask : List (AcceptCall Bool ℕ ℕ) :=
  [⟨0, false, [], .ready (some 7)⟩, ⟨1000, false, [1], .pending⟩]

/-- Another task polls next and has an error. It is pending, and only the first task will be
woken. -/
theorem not_arranged_example :
    ∃ s, ∃ r : Acceptance Bool ℕ ℕ,
      (acceptor Bool ℕ ℕ exampleClock).exec ⟨.new, 0⟩ firstTask = some s ∧
      acceptAll exampleClock ⟨2000, true, [], .ready (some 7)⟩ s.backoff = some r ∧
      r.backoff = ⟨some ⟨⟨3000, some false, false⟩, 1⟩⟩ ∧ ¬ Arranged true r := by
  refine ⟨⟨⟨some ⟨⟨1000, some false, true⟩, 0⟩⟩, 1000⟩,
    ⟨.pending, ⟨some ⟨⟨3000, some false, false⟩, 1⟩⟩, [], some (.ready (some 7))⟩,
    by decide, rfl, rfl, fun h => ?_⟩
  rcases h rfl with hpending | ⟨inner, hinner, hwaker, -⟩
  · cases hpending
  · obtain rfl := Option.some_inj.1 hinner
    cases hwaker

end Websub
