import Websub.Acceptor
import Websub.Subscriber

/-!
# The end of the incoming stream

`Subscriber::poll_next` with its backoff. The call of `accept_all` is one step here, as it
reads neither the channel nor the count. What it does to the subscriber are the steps of
`Subscriber.step` (`Acceptance.actions`), so that the runs of `listening` are runs of
`subscriber` (`reachable_subscriber`).

`poll_next` keeps nothing of what `accept_all` has returned. Where it does not end the stream
of updates when the incoming stream is over, its next call polls the incoming stream again,
as the backoff is not pending after the call that ended it (`unpolled_iff`).
-/

namespace Websub

open Machines

variable {U W S E : Type}

/-! ## The code -/

/-- The steps of `poll_next` in which it accepts these connections, and gets this reply of
`accept_all`. -/
def Acceptance.actions (U : Type) (r : Acceptance W S E) : List (SubscriberAction U) :=
  .poll :: (List.replicate r.accepted.length .accept ++ [match r.reply with
    | .ready (.error _) => .fail
    | .ready (.ok ()) => .accepted true
    | .pending => .accepted false])

/-- A `Subscriber` with its backoff, and the time of its last call. -/
structure Listening (U W : Type) where
  subscriber : Subscriber U
  acceptor : TimedBackoff W
deriving DecidableEq

/-- `poll_next` is called and gets to the end of `accept_all`, or a step follows of it or of
anyone else. -/
inductive ListeningAction (U W S E : Type)
  | acceptAll (call : AcceptCall W S E)
  | other (a : SubscriberAction U)
deriving DecidableEq

namespace Listening

/-- `poll_next` may be called then. -/
def Callable (s : Listening U W) (now : ℕ) : Prop :=
  s.subscriber.phase = .idle ∧ s.acceptor.now ≤ now

instance (s : Listening U W) (now : ℕ) : Decidable (s.Callable now) :=
  inferInstanceAs (Decidable (_ ∧ _))

/-- One step. -/
def step (clock : Clock) (s : Listening U W) :
    ListeningAction U W S E → Option (Listening U W)
  | .acceptAll call =>
    if s.Callable call.now then do
      let r ← Websub.acceptAll clock call s.acceptor.backoff
      let subscriber ← (Websub.subscriber U).exec s.subscriber (r.actions U)
      some ⟨subscriber, ⟨r.backoff, call.now⟩⟩
    else none
  | .other .poll => none
  | .other a => (s.subscriber.step a).map fun subscriber => { s with subscriber }

end Listening

/-- The runs of a subscriber with its backoff. -/
def listening (U W S E : Type) (clock : Clock) :
    Machine (Listening U W) (ListeningAction U W S E) where
  init s := (subscriber U).init s.subscriber ∧ s.acceptor.backoff = .new
  step := Listening.step clock

/-- The incoming stream is over after a call. -/
def Acceptance.ended (r : Acceptance W S E) : Bool :=
  match r.last with
  | some (.ready none) => true
  | _ => false

/-- Whether the incoming stream has been over, after a step. -/
def nextEnded (clock : Clock) (ended : Bool) (s : Listening U W) :
    ListeningAction U W S E → Listening U W → Bool
  | .acceptAll call, _ => ended || (acceptAll clock call s.acceptor.backoff).any Acceptance.ended
  | .other _, _ => ended

/-- The subscriber, with whether the incoming stream has yielded `None`. -/
def ending (U W S E : Type) (clock : Clock) :
    Machine (Listening U W × Bool) (ListeningAction U W S E) :=
  (listening U W S E clock).withHistory (fun _ => false) (nextEnded clock)

/-- Once the incoming stream has yielded `None`, a call of `poll_next` returns without polling
it. -/
def Unpolled (clock : Clock) (p : Listening U W × Bool) : ListeningAction U W S E → Prop
  | .acceptAll call => p.2 = true → p.1.Callable call.now →
    ∃ r, acceptAll clock call p.1.acceptor.backoff = some r ∧ r.last = none
  | .other _ => True

/-- Once the incoming stream has yielded `None`, `poll_next` is not called. -/
def Uncalled (p : Listening U W × Bool) : ListeningAction U W S E → Prop
  | .acceptAll call => p.2 = true → ¬ p.1.Callable call.now
  | .other _ => True

/-! ## The steps of the subscriber -/

/-- Where `poll_next` is after `accept_all`. -/
def Acceptance.phase (r : Acceptance W S E) : PollPhase :=
  match r.reply with
  | .ready (.error _) => .idle
  | .ready (.ok ()) => .polling true
  | .pending => .polling false

/-- Connections that are accepted one after another are counted, and nothing else. -/
theorem exec_replicate_accept (s : Subscriber U) (h : s.phase = .accepting) (n : ℕ)
    (as : List (SubscriberAction U)) :
    (subscriber U).exec s (List.replicate n .accept ++ as) =
      (subscriber U).exec { s with connections := s.connections + n } as := by
  induction n generalizing s with
  | zero => rfl
  | succ n ih =>
    have haccept : (subscriber U).step s .accept =
        some { s with connections := s.connections + 1 } := if_pos h
    rw [List.replicate_succ, List.cons_append, Machine.exec_of_step haccept,
      ih { s with connections := s.connections + 1 } h]
    simp only [Nat.add_assoc, Nat.add_comm 1]

/-- The steps of a call of `accept_all`. -/
theorem exec_actions (r : Acceptance W S E) (s : Subscriber U) (h : s.phase = .idle) :
    (subscriber U).exec s (r.actions U) =
      some { s with connections := s.connections + r.accepted.length, phase := r.phase } := by
  have hpoll : (subscriber U).step s .poll = some { s with phase := .accepting } := if_pos h
  unfold Acceptance.actions Acceptance.phase
  rw [Machine.exec_of_step hpoll, exec_replicate_accept _ rfl]
  split <;> rfl

section Steps

variable {clock : Clock} {s t : Listening U W} {p q : Listening U W × Bool}
  {call : AcceptCall W S E} {a : ListeningAction U W S E}

/-- The step of a call of `accept_all`. -/
theorem step_acceptAll_iff : (listening U W S E clock).step s (.acceptAll call) = some t ↔
    s.Callable call.now ∧ ∃ r, acceptAll clock call s.acceptor.backoff = some r ∧
      t = ⟨{ s.subscriber with
        connections := s.subscriber.connections + r.accepted.length, phase := r.phase },
        ⟨r.backoff, call.now⟩⟩ := by
  unfold listening Listening.step
  simp only [Option.ite_none_right_eq_some, Option.bind_eq_bind, Option.bind_eq_some_iff]
  refine and_congr_right fun hcall => exists_congr fun r => and_congr_right fun _ => ?_
  rw [exec_actions r _ hcall.1]
  simp [eq_comm]

/-- Another step. -/
theorem step_of_step_other {a : SubscriberAction U}
    (h : (listening U W S E clock).step s (.other a) = some t) :
    s.subscriber.step a = some t.subscriber ∧ t.acceptor = s.acceptor := by
  have hmap : (s.subscriber.step a).map (fun subscriber => ⟨subscriber, s.acceptor⟩) = some t := by
    cases a with
    | poll => cases h
    | _ => exact h
  obtain ⟨subscriber, hstep, rfl⟩ := Option.map_eq_some_iff.1 hmap
  exact ⟨hstep, rfl⟩

/-- Every step is a run of the subscriber. -/
theorem exists_exec_of_step (h : (listening U W S E clock).step s a = some t) :
    ∃ as, (subscriber U).exec s.subscriber as = some t.subscriber := by
  cases a with
  | acceptAll call =>
    obtain ⟨hcall, r, -, rfl⟩ := step_acceptAll_iff.1 h
    exact ⟨_, exec_actions r _ hcall.1⟩
  | other a =>
    have hstep : (subscriber U).step s.subscriber a = some t.subscriber :=
      (step_of_step_other h).1
    exact ⟨[a], by rw [Machine.exec_of_step hstep, Machine.exec_nil]⟩

/-- The runs are runs of the subscriber. -/
theorem reachable_subscriber (h : (listening U W S E clock).Reachable Machine.always s) :
    (subscriber U).Reachable Machine.always s.subscriber := by
  refine h.invariant
    (I := fun s : Listening U W => (subscriber U).Reachable Machine.always s.subscriber)
    (fun _ hinit => .init (And.left hinit)) fun _ _ _ hs _ hstep => ?_
  obtain ⟨as, has⟩ := exists_exec_of_step hstep
  exact hs.exec has (Machine.guarded_always _ _)

end Steps

/-! ## Polls of the incoming stream -/

/-- Once the incoming stream is over the backoff is not pending. -/
def Rested (p : Listening U W × Bool) : Prop :=
  p.2 = true → ∀ later ≥ p.1.acceptor.now, ∀ waker,
    (p.1.acceptor.backoff.poll later waker).1 = .ready ()

section Polls

variable {clock : Clock} {p q : Listening U W × Bool} {call : AcceptCall W S E}
  {a : ListeningAction U W S E} {b : Backoff W} {r : Acceptance W S E}

/-- A call polls the incoming stream if the backoff is not pending, even if it panics. -/
theorem last_ne_none_of_ready (hpoll : (b.poll call.now call.waker).1 = .ready ())
    (h : acceptAll clock call b = some r) : r.last ≠ none := by
  cases acceptAll_eq_some_iff.1 h with
  | waiting hpending => cases hpending.symm.trans hpoll
  | _ => exact Option.some_ne_none _

/-- A backoff that is ready stays so, and is when it is reset. -/
theorem ready_of_backoffAfter (hpoll : (b.poll call.now call.waker).1 = .ready ())
    (accepted : List S) {later : ℕ} (hlater : call.now ≤ later) (waker : W) :
    ((call.backoffAfter b accepted).poll later waker).1 = .ready () := by
  cases accepted with
  | nil =>
    cases hagain : ((call.backoffAfter b []).poll later waker).1 with
    | ready => rfl
    | pending =>
      have hpending := (Backoff.poll_poll_eq_pending_iff hlater).1 hagain
      obtain ⟨w, hw, helapsed, hbefore⟩ := Backoff.poll_eq_pending_iff.1 hpending
      have hthen : (b.poll call.now call.waker).1 = .pending :=
        Backoff.poll_eq_pending_iff.2 ⟨w, hw, helapsed, by omega⟩
      cases hthen.symm.trans hpoll
  | cons sock sockets =>
    exact congrArg Prod.fst (Backoff.poll_of_waitSecs (waitSecs_reset _) later waker)

/-- The call in which the incoming stream ends leaves a backoff that is ready. -/
theorem ready_of_ended (h : acceptAll clock call b = some r) (hended : r.ended = true)
    {later : ℕ} (hlater : call.now ≤ later) (waker : W) :
    (r.backoff.poll later waker).1 = .ready () := by
  cases acceptAll_eq_some_iff.1 h with
  | ended hpoll _ => exact ready_of_backoffAfter hpoll call.sockets hlater waker
  | waiting _ | pending _ _ | surfaced _ _ _ _ | swallowed _ _ _ _ _ _ => cases hended

/-- A call in which the stream ends goes on to the channel, and knows of the end. -/
theorem phase_of_ended (h : acceptAll clock call b = some r) (hended : r.ended = true) :
    r.phase = .polling true := by
  cases acceptAll_eq_some_iff.1 h with
  | ended _ _ => rfl
  | waiting _ | pending _ _ | surfaced _ _ _ _ | swallowed _ _ _ _ _ _ => cases hended

/-- A call after the end polls the incoming stream. -/
theorem not_callable_of_unpolled (hp : Rested p) (hended : p.2 = true)
    (hok : Unpolled clock p (.acceptAll call)) : ¬ p.1.Callable call.now := by
  intro hcall
  obtain ⟨r, hr, hlast⟩ := hok hended hcall
  exact last_ne_none_of_ready (hp hended call.now hcall.2 call.waker) hr hlast

/-- At rest the stream is polled after its end exactly by a call after its end. -/
theorem unpolled_iff_uncalled (hp : Rested p) : Unpolled clock p a ↔ Uncalled p a := by
  cases a with
  | acceptAll call =>
    exact ⟨fun hok hended => not_callable_of_unpolled hp hended hok,
      fun hok hended hcall => absurd hcall (hok hended)⟩
  | other a => rfl

/-- What is kept by a step that does not poll an incoming stream that is over. -/
theorem rested_step (hp : Rested p) (hok : Unpolled clock p a)
    (h : (ending U W S E clock).step p a = some q) : Rested q := by
  obtain ⟨s, ended⟩ := p
  obtain ⟨t, ended'⟩ := q
  obtain ⟨hstep, hended⟩ := Machine.withHistory_step h
  replace hstep : (listening U W S E clock).step s a = some t := hstep
  replace hended : ended' = nextEnded clock ended s a t := hended
  subst hended
  intro htrue later hlater waker
  cases a with
  | acceptAll call =>
    obtain ⟨hcall, r, hr, rfl⟩ := step_acceptAll_iff.1 hstep
    cases ended with
    | true => exact absurd hcall (not_callable_of_unpolled hp rfl hok)
    | false =>
      have hyielded : r.ended = true := by simpa [nextEnded, hr] using htrue
      exact ready_of_ended hr hyielded hlater waker
  | other a =>
    obtain ⟨-, hsame⟩ := step_of_step_other hstep
    change (t.acceptor.backoff.poll later waker).1 = .ready ()
    rw [hsame]
    refine hp htrue later ?_ waker
    rw [← hsame]
    exact hlater

end Polls

/-- The steps of a call of `poll_next` with nothing in between, where the channel is empty. -/
def pollNext (U : Type) (call : AcceptCall W S E) : List (ListeningAction U W S E) :=
  [.acceptAll call, .other .receive, .other .count]

/-- A call in which the incoming stream ends is the last one exactly if it accepts nothing, the
channel is empty and the service is held nowhere else. -/
theorem finished_iff_of_ended {clock : Clock} {call : AcceptCall W S E} {s : Listening U W}
    (hcall : s.Callable call.now) {r : Acceptance W S E}
    (hr : acceptAll clock call s.acceptor.backoff = some r) (hended : r.ended = true) :
    (∃ t, (listening U W S E clock).exec s (pollNext U call) = some t ∧
        t.subscriber.phase = .finished) ↔
      s.subscriber.rx = [] ∧ s.subscriber.strongCount = 1 ∧ r.accepted = [] := by
  have hphase : r.phase = .polling true := phase_of_ended hr hended
  have hstep := step_acceptAll_iff.2 ⟨hcall, r, hr, rfl⟩
  unfold pollNext
  rw [Machine.exec_of_step hstep, hphase]
  cases hrx : s.subscriber.rx with
  | nil =>
    have hcount : (1 + (s.subscriber.connections + r.accepted.length) + s.subscriber.others = 1) ↔
        1 + s.subscriber.connections + s.subscriber.others = 1 ∧ r.accepted = [] := by
      rw [← List.length_eq_zero_iff]
      omega
    simp [Machine.exec_cons, listening, Listening.step, Subscriber.step, Subscriber.strongCount,
      hrx, hcount]
  | cons update rx =>
    simp [Machine.exec_cons, listening, Listening.step, Subscriber.step, hrx]

/-- In a run, whatever the channel, the references and the backoff are at its start, the incoming
stream is not polled again after it has yielded `None` exactly if `poll_next` is not called
again. -/
theorem unpolled_iff (U W S E : Type) (clock : Clock) (s : Listening U W)
    (as : List (ListeningAction U W S E)) :
    (ending U W S E clock).Guarded (Unpolled clock) (s, false) as ↔
      (ending U W S E clock).Guarded Uncalled (s, false) as := by
  refine Machine.guarded_congr (I := Rested) (fun _ _ hp => unpolled_iff_uncalled hp)
    (fun _ _ _ hp hok hstep => rested_step hp hok hstep) fun hended => ?_
  cases hended

/-- The incoming stream ends while someone else holds the service. -/
def heldRun : List (ListeningAction ℕ Unit ℕ ℕ) :=
  pollNext ℕ ⟨0, (), [], .ready none⟩

/-- The next call polls the incoming stream again. -/
theorem not_unpolled_held :
    ∃ p, (ending ℕ Unit ℕ ℕ exampleClock).exec
        (⟨⟨[], 0, 1, .idle⟩, ⟨.new, 0⟩⟩, false) heldRun = some p ∧ p.2 = true ∧
      ¬ Unpolled exampleClock p (.acceptAll (⟨1, (), [], .pending⟩ : AcceptCall Unit ℕ ℕ)) := by
  refine ⟨(⟨⟨[], 0, 1, .idle⟩, ⟨.new, 0⟩⟩, true), by decide, rfl, fun h => ?_⟩
  obtain ⟨r, hr, hlast⟩ := h rfl (by decide)
  obtain rfl := Option.some_inj.1 hr
  cases hlast

end Websub
