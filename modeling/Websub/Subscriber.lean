import Websub.Lib.Machine

/-!
# The end of the stream of updates

`Subscriber::poll_next`, with `accept_all`, the channel and the references to the service.
`poll_next` accepts what the incoming stream has, polls the channel, and if that is empty
and the incoming stream is over reads the reference count. A connection has a clone of the
service, through which it enqueues updates until it drops it. `subscriber` is the machine
of these steps and of those of any number of connections.

The channel and the count are read one after the other. As long as nothing is enqueued
between the two reads of the poll that ends the stream, no update is lost
(`shutdown_complete`).

The channel is never closed while the subscriber is there, as its own service is a sender,
so polling it yields an update or is pending.
-/

namespace Websub

open Machines

/-! ## The code -/

/-- Where the subscriber's task is in `Subscriber::poll_next`. -/
inductive PollPhase
  /-- Not polled. -/
  | idle
  /-- In `accept_all`. -/
  | accepting
  /-- About to poll the channel. -/
  | polling (incomingDone : Bool)
  /-- The channel was empty, and the count is not yet read. -/
  | counting (incomingDone : Bool)
  /-- After `Poll::Ready(None)`. -/
  | finished
deriving DecidableEq

/-- A `Subscriber` with its channel and the references to its service, for updates of type
`U`. -/
structure Subscriber (U : Type) where
  /-- The channel, the oldest update first. -/
  rx : List U
  /-- The connections that have not dropped their clone of the service. -/
  connections : ℕ
  /-- The references to the service held elsewhere. -/
  others : ℕ
  phase : PollPhase
deriving DecidableEq

/-- A step of the subscriber's task, of a connection, or of another holder. -/
inductive SubscriberAction (U : Type)
  | poll
  /-- `accept_all` accepts a socket and spawns its connection. -/
  | accept
  /-- `accept_all` returns that the incoming stream is over, or is pending. -/
  | accepted (incomingDone : Bool)
  /-- `accept_all` fails, and so does `poll_next`. -/
  | fail
  /-- The channel is polled. -/
  | receive
  /-- The reference count is read. -/
  | count
  /-- A connection enqueues an update. -/
  | send (update : U)
  /-- A connection drops its clone of the service. -/
  | close
  /-- Another reference to the service is made. -/
  | acquire
  /-- Another reference to the service is dropped. -/
  | release
deriving DecidableEq

namespace Subscriber

variable {U : Type} (s : Subscriber U)

/-- `Arc::strong_count` of the service. -/
def strongCount : ℕ :=
  1 + s.connections + s.others

/-- One step. -/
def step : SubscriberAction U → Option (Subscriber U)
  | .poll => if s.phase = .idle then some { s with phase := .accepting } else none
  | .accept =>
    if s.phase = .accepting then some { s with connections := s.connections + 1 } else none
  | .accepted incomingDone =>
    if s.phase = .accepting then some { s with phase := .polling incomingDone } else none
  | .fail => if s.phase = .accepting then some { s with phase := .idle } else none
  | .receive =>
    match s.phase, s.rx with
    | .polling _, _ :: rx => some { s with rx, phase := .idle }
    | .polling incomingDone, [] => some { s with phase := .counting incomingDone }
    | _, _ => none
  | .count =>
    match s.phase with
    | .counting incomingDone =>
      some { s with phase := if incomingDone && s.strongCount == 1 then .finished else .idle }
    | _ => none
  | .send update => if s.connections = 0 then none else some { s with rx := s.rx ++ [update] }
  | .close => if s.connections = 0 then none else some { s with connections := s.connections - 1 }
  | .acquire => some { s with others := s.others + 1 }
  | .release => if s.others = 0 then none else some { s with others := s.others - 1 }

end Subscriber

/-- The runs of a subscriber. -/
def subscriber (U : Type) : Machine (Subscriber U) (SubscriberAction U) where
  init s := ∃ others, s = ⟨[], 0, others, .idle⟩
  step := Subscriber.step

/-! ## The updates of a run -/

/-- The past of a run. -/
structure Updates (U : Type) where
  enqueued : List U
  yielded : List U
  /-- An update was enqueued since the channel was last polled. -/
  sent : Bool
deriving DecidableEq

/-- The past after a step. -/
def Updates.next {U : Type} (h : Updates U) (s : Subscriber U) :
    SubscriberAction U → Subscriber U → Updates U
  | .send update, _ => { h with enqueued := h.enqueued ++ [update], sent := true }
  | .receive, _ => { h with yielded := h.yielded ++ s.rx.take 1, sent := false }
  | _, _ => h

/-- The subscriber, with the updates of the run. -/
def updating (U : Type) : Machine (Subscriber U × Updates U) (SubscriberAction U) :=
  (subscriber U).withHistory (fun _ => ⟨[], [], false⟩) Updates.next

/-- The count is read as one, after the incoming stream is over, only if nothing was
enqueued since the channel was polled. -/
def CountsInTime {U : Type} (p : Subscriber U × Updates U) : SubscriberAction U → Prop
  | .count => p.1.phase = .counting true → p.1.strongCount = 1 → p.2.sent = false
  | _ => True

instance {U : Type} (p : Subscriber U × Updates U) : ∀ a, Decidable (CountsInTime p a)
  | .count => inferInstanceAs (Decidable (_ → _ → _))
  | .poll | .accept | .accepted _ | .fail | .receive | .send _ | .close | .acquire | .release =>
    isTrue trivial

/-! ## What every step keeps -/

variable {U : Type}

/-- What every step keeps. -/
structure SubscriberInv (p : Subscriber U × Updates U) : Prop where
  /-- The channel is what was enqueued and not yielded. -/
  fifo : p.2.yielded ++ p.1.rx = p.2.enqueued
  /-- The channel stays empty until something is sent. -/
  counting : ∀ incomingDone, p.1.phase = .counting incomingDone → p.2.sent = false → p.1.rx = []
  finished : p.1.phase = .finished → p.1.rx = [] ∧ p.1.connections = 0

theorem updating_init (U : Type) (others : ℕ) :
    (updating U).init (⟨[], 0, others, .idle⟩, ⟨[], [], false⟩) :=
  ⟨⟨others, rfl⟩, rfl⟩

theorem subscriberInv_init {p : Subscriber U × Updates U} (h : (updating U).init p) :
    SubscriberInv p := by
  obtain ⟨s, u⟩ := p
  obtain ⟨⟨others, rfl⟩, h⟩ := h
  obtain rfl : u = ⟨[], [], false⟩ := h
  exact ⟨rfl, by simp, by simp⟩

theorem subscriberInv_step {p q : Subscriber U × Updates U} {a : SubscriberAction U}
    (hi : SubscriberInv p) (hok : CountsInTime p a) (h : (updating U).step p a = some q) :
    SubscriberInv q := by
  obtain ⟨s, u⟩ := p
  obtain ⟨t, v⟩ := q
  obtain ⟨hst, hv⟩ := Machine.withHistory_step h
  replace hst : s.step a = some t := hst
  replace hv : v = u.next s a t := hv
  subst hv
  have hfifo : u.yielded ++ s.rx = u.enqueued := hi.fifo
  cases a with
  | receive =>
    simp only [Subscriber.step] at hst
    split at hst
    · rename_i x rx hp hrx
      obtain rfl := Option.some_inj.1 hst
      refine ⟨?_, by simp, by simp⟩
      simpa [Updates.next, hrx] using hfifo
    · rename_i done hp hrx
      obtain rfl := Option.some_inj.1 hst
      refine ⟨?_, fun _ _ _ => hrx, by simp⟩
      simpa [Updates.next, hrx] using hfifo
    · cases hst
  | count =>
    simp only [Subscriber.step] at hst
    split at hst
    · rename_i done hp
      obtain rfl := Option.some_inj.1 hst
      cases hlast : done && s.strongCount == 1 with
      | false => exact ⟨hfifo, by simp, by simp⟩
      | true =>
        obtain ⟨rfl, hone⟩ : done = true ∧ s.strongCount = 1 := by simpa using hlast
        have hsent := hok hp hone
        have hconn : s.connections = 0 := by
          unfold Subscriber.strongCount at hone
          omega
        exact ⟨hfifo, by simp, fun _ => ⟨hi.counting true hp hsent, hconn⟩⟩
    · cases hst
  | send update =>
    simp only [Subscriber.step] at hst
    split at hst
    · cases hst
    · rename_i hconn
      obtain rfl := Option.some_inj.1 hst
      refine ⟨?_, by simp [Updates.next], fun hp => absurd (hi.finished hp).2 hconn⟩
      simp [Updates.next, ← hfifo]
  | close =>
    simp only [Subscriber.step] at hst
    split at hst
    · cases hst
    · rename_i hconn
      obtain rfl := Option.some_inj.1 hst
      exact ⟨hfifo, hi.counting, fun hp => absurd (hi.finished hp).2 hconn⟩
  | acquire =>
    obtain rfl := Option.some_inj.1 hst
    exact ⟨hfifo, hi.counting, hi.finished⟩
  | release =>
    simp only [Subscriber.step] at hst
    split at hst
    · cases hst
    · obtain rfl := Option.some_inj.1 hst
      exact ⟨hfifo, hi.counting, hi.finished⟩
  | _ =>
    -- the task is neither before nor after reading the count
    simp only [Subscriber.step] at hst
    split at hst
    · rename_i hp
      obtain rfl := Option.some_inj.1 hst
      exact ⟨hfifo, by simp [hp], by simp [hp]⟩
    · cases hst

/-- Once the stream has ended no connection is left to enqueue anything. -/
theorem finished_step {s t : Subscriber U} {u : Updates U} {a : SubscriberAction U}
    (hp : s.phase = .finished) (hc : s.connections = 0) (h : s.step a = some t) :
    t.phase = .finished ∧ t.connections = 0 ∧ (u.next s a t).enqueued = u.enqueued := by
  cases a <;> simp_all [Subscriber.step, Updates.next]
  all_goals grind

theorem enqueued_of_exec {p q : Subscriber U × Updates U} {as : List (SubscriberAction U)}
    (hp : p.1.phase = .finished) (hc : p.1.connections = 0) (h : (updating U).exec p as = some q) :
    q.2.enqueued = p.2.enqueued := by
  induction as generalizing p with
  | nil =>
    obtain rfl : p = q := by simpa using h
    rfl
  | cons a as ih =>
    rw [Machine.exec_cons, Option.bind_eq_some_iff] at h
    obtain ⟨r, hr, h⟩ := h
    obtain ⟨hst, hh⟩ := Machine.withHistory_step hr
    obtain ⟨hp', hc', he⟩ := finished_step (u := p.2) hp hc hst
    rw [ih hp' hc' h, hh, he]

/-- In a run that counts in time, when `poll_next` has ended the stream every update that
was enqueued has been yielded, and in whatever order the remaining steps come none is
enqueued later. -/
theorem shutdown_complete {p : Subscriber U × Updates U}
    (hp : (updating U).Reachable CountsInTime p) (hend : p.1.phase = .finished) :
    p.2.yielded = p.2.enqueued ∧
      ∀ as q, (updating U).exec p as = some q → q.2.enqueued = p.2.enqueued := by
  have hi : SubscriberInv p :=
    hp.invariant (fun _ h => subscriberInv_init h) fun _ _ _ hi hok h => subscriberInv_step hi hok h
  obtain ⟨hrx, hconn⟩ := hi.finished hend
  refine ⟨?_, fun as q h => enqueued_of_exec hend hconn h⟩
  rw [← hi.fifo, hrx, List.append_nil]

/-- A connection enqueues an update that is yielded before the stream ends. -/
def servedRun : List (SubscriberAction ℕ) :=
  [.poll, .accept, .send 1, .accepted true, .receive, .close, .poll, .accepted true, .receive,
    .count]

theorem shutdown_complete_served :
    (⟨[1], [1], false⟩ : Updates ℕ).yielded = [1] ∧ ∀ as q,
      (updating ℕ).exec (⟨[], 0, 0, .finished⟩, ⟨[1], [1], false⟩) as = some q →
        q.2.enqueued = [1] := by
  have hrun : (updating ℕ).exec (⟨[], 0, 0, .idle⟩, ⟨[], [], false⟩) servedRun =
      some (⟨[], 0, 0, .finished⟩, ⟨[1], [1], false⟩) := by decide
  have hguard : (updating ℕ).Guarded CountsInTime (⟨[], 0, 0, .idle⟩, ⟨[], [], false⟩)
      servedRun := by decide
  exact shutdown_complete (.exec (.init (updating_init ℕ 0)) hrun hguard) rfl

/-- A connection enqueues an update and drops its clone between the two reads. -/
def lossRun : List (SubscriberAction ℕ) :=
  [.poll, .accept, .accepted true, .receive, .send 1, .close, .count]

/-- The stream ends, and the update was never yielded. -/
theorem update_lost :
    ∃ p, (updating ℕ).Reachable Machine.always p ∧ p.1.phase = .finished ∧
      p.2.yielded ≠ p.2.enqueued := by
  refine ⟨(⟨[1], 0, 0, .finished⟩, ⟨[1], [], true⟩), ?_, rfl, by decide⟩
  have hrun : (updating ℕ).exec (⟨[], 0, 0, .idle⟩, ⟨[], [], false⟩) lossRun =
      some (⟨[1], 0, 0, .finished⟩, ⟨[1], [], true⟩) := by decide
  exact .exec (.init (updating_init ℕ 0)) hrun (Machine.guarded_always _ _)

end Websub
