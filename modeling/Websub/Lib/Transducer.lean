import Mathlib

/-!
# Transducers and their simulations

A `Transducer` is a state that answers each input with an output. Where one transducer is
written to do what another one says, a relation of their states that every input keeps, with
outputs that match, carries over to whole runs (`Transducer.run_related`) : the outputs match
one by one, and the states stay related.
-/

namespace Transducers

/-- The output and the next state for each input. -/
structure Transducer (S A O : Type*) where
  step : S → A → O × S

namespace Transducer

variable {S T A O P : Type*}

/-- The outputs of a run, and the state after it. -/
def run (M : Transducer S A O) : S → List A → List O × S
  | s, [] => ([], s)
  | s, a :: as =>
    let rest := M.run (M.step s a).2 as
    ((M.step s a).1 :: rest.1, rest.2)

theorem run_append (M : Transducer S A O) (s : S) (as bs : List A) :
    (M.run s (as ++ bs)).1 = (M.run s as).1 ++ (M.run (M.run s as).2 bs).1 := by
  induction as generalizing s with
  | nil => rfl
  | cons a as ih => exact congrArg ((M.step s a).1 :: ·) (ih (M.step s a).2)

/-- States that are related stay so through a run, and the outputs match, if they do for each
input that is allowed. -/
theorem run_related {M : Transducer S A O} {N : Transducer T A P} {R : S → T → Prop}
    {Q : O → P → Prop} {ok : A → Prop}
    (hstep : ∀ s t a, R s t → ok a →
      Q (M.step s a).1 (N.step t a).1 ∧ R (M.step s a).2 (N.step t a).2) :
    ∀ {s : S} {t : T} {as : List A}, R s t → (∀ a ∈ as, ok a) →
      List.Forall₂ Q (M.run s as).1 (N.run t as).1 ∧ R (M.run s as).2 (N.run t as).2
  | _, _, [], h, _ => ⟨.nil, h⟩
  | s, t, a :: as, h, hok => by
    obtain ⟨hout, hrel⟩ := hstep s t a h (hok a List.mem_cons_self)
    obtain ⟨houts, hend⟩ := run_related hstep hrel fun b hb => hok b (List.mem_cons_of_mem a hb)
    exact ⟨.cons hout houts, hend⟩

end Transducer

end Transducers
