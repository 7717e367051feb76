import Websub.Lib.Transducer

/-!
# One-shot timers

A timer that runs a callback when its time has come, and knows at most one such time : the
callback's last result, or an earlier time that somebody has asked for since. `OneShot` keeps
what it was told and takes the minimum. It is meant as the specification of a timer that
caches that minimum, and may cache it more than once : `timer` is the transducer that such a
timer is compared with.
-/

namespace Timers

open Transducers

variable {T σ ι ε : Type}

/-- What can happen to a timer. `ι` is what the callback reads of its surroundings. -/
inductive Action (T ι : Type)
  /-- Somebody asks for a tick at a time. -/
  | hasten (time : T)
  /-- The clock moves. -/
  | advance (now : T)
  | poll (surroundings : ι)
deriving DecidableEq

/-- What can be seen of a poll. -/
structure Observed (T ε : Type) where
  /-- The poll is pending, or ends with the error of the callback. -/
  reply : Except ε Unit
  /-- How often the callback has been invoked. -/
  invocations : ℕ
  /-- The next time. -/
  next : Option T
  /-- The time that the timer is armed for. -/
  armed : Option T
deriving DecidableEq

/-- A timer with at most one next time, and the state of its callback. -/
structure OneShot (T σ : Type) where
  /-- The last result of the callback, at first the first time. -/
  base : Option T
  /-- The times that were asked for since. -/
  hastened : List T
  now : T
  callback : σ
  invocations : ℕ

namespace OneShot

variable [LinearOrder T]

/-- The minimum of the last result and of the times that were asked for since. -/
def next (s : OneShot T σ) : Option T :=
  (s.hastened ++ s.base.toList).min?

/-- The poll of a timer : the callback is invoked if there is a next time that has come. -/
def poll (tick : σ → ι → Except ε (Option T) × σ) (s : OneShot T σ) (i : ι) :
    Observed T ε × OneShot T σ :=
  match s.next with
  | none => (⟨.ok (), s.invocations, none, none⟩, s)
  | some time =>
    if time ≤ s.now then
      match tick s.callback i with
      | (.error e, callback) => (⟨.error e, s.invocations + 1, some time, some time⟩,
          { s with callback, invocations := s.invocations + 1 })
      | (.ok result, callback) => (⟨.ok (), s.invocations + 1, result, result⟩,
          { s with base := result, hastened := [], callback, invocations := s.invocations + 1 })
    else (⟨.ok (), s.invocations, some time, some time⟩, s)

/-- The timer as a transducer. -/
def timer (tick : σ → ι → Except ε (Option T) × σ) :
    Transducer (OneShot T σ) (Action T ι) (Option (Observed T ε)) where
  step s
    | .hasten time => (none, { s with hastened := time :: s.hastened })
    | .advance now => (none, { s with now })
    | .poll i => ((s.poll tick i).1, (s.poll tick i).2)

theorem next_of_hasten (s : OneShot T σ) (time : T) :
    ({ s with hastened := time :: s.hastened } : OneShot T σ).next =
      some (s.next.elim time (min time)) := by
  unfold next
  rw [List.cons_append, List.min?_cons]

theorem next_of_result (result : Option T) (now : T) (callback : σ) (n : ℕ) :
    (⟨result, [], now, callback, n⟩ : OneShot T σ).next = result := by
  cases result <;> rfl

end OneShot

end Timers
