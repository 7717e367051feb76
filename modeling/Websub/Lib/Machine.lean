import Mathlib

/-!
# Machines and their guarded runs

A `Machine` has initial states and a partial step function : `step s a` is the state
after the action `a`, or `none` where `a` is not enabled. Interleaving is the choice
of the next action, so a machine of several parties has one action for each step of
each party.

`Reachable ok` are the states of the runs all of whose steps meet the guard `ok`,
which reads the state before the step. `Machine.Reachable.invariant` is the induction
every safety proof uses : a predicate that holds initially and is kept by the guarded
steps holds in every state of the guarded runs.

`withHistory` adds a history variable, a value that watches the run without taking
part in it : a step is one of the machine, and records itself (`withHistory_step`). A
statement that speaks of the past of a run is one about the states of the machine with
history.
-/

namespace Machines

/-- Initial states, and the state after each enabled action. -/
structure Machine (S A : Type*) where
  /-- The states a run starts in. -/
  init : S → Prop
  /-- The state after an action, `none` where the action is not enabled. -/
  step : S → A → Option S

namespace Machine

variable {S A : Type*} (M : Machine S A)

/-- The states of the runs whose steps all meet the guard. -/
inductive Reachable (ok : S → A → Prop) : S → Prop
  | init {s : S} : M.init s → Reachable ok s
  | step {s t : S} {a : A} : Reachable ok s → ok s a → M.step s a = some t → Reachable ok t

/-- The guard that lets every step through. -/
abbrev always : S → A → Prop := fun _ _ => True

/-- The machine, started in the initial states that meet `P`. -/
def startingIn (P : S → Prop) : Machine S A where
  init s := M.init s ∧ P s
  step := M.step

variable {M}

/-- What holds initially and is kept by every guarded step holds in every guarded
run. -/
theorem Reachable.invariant {ok : S → A → Prop} {I : S → Prop} (h0 : ∀ s, M.init s → I s)
    (h1 : ∀ s a t, I s → ok s a → M.step s a = some t → I t) {s : S} (hs : M.Reachable ok s) :
    I s := by
  induction hs with
  | init hi => exact h0 _ hi
  | step _ hok hst ih => exact h1 _ _ _ ih hok hst

variable (M)

/-- The state after a list of actions, `none` once one of them is not enabled. -/
def exec (s : S) (as : List A) : Option S :=
  as.foldlM M.step s

@[simp] theorem exec_nil (s : S) : M.exec s [] = some s :=
  rfl

theorem exec_cons (s : S) (a : A) (as : List A) :
    M.exec s (a :: as) = (M.step s a).bind fun t => M.exec t as :=
  rfl

variable {M}

theorem exec_of_step {s t : S} {a : A} (h : M.step s a = some t) (as : List A) :
    M.exec s (a :: as) = M.exec t as := by
  rw [exec_cons, h, Option.bind_some]

/-- Each action of the list meets the guard in the state it is taken in. -/
def Guarded (M : Machine S A) (ok : S → A → Prop) : S → List A → Prop
  | _, [] => True
  | s, a :: as => ok s a ∧ match M.step s a with
    | some t => Guarded M ok t as
    | none => True

instance decidableGuarded (M : Machine S A) (ok : S → A → Prop) [∀ s a, Decidable (ok s a)] :
    ∀ s as, Decidable (M.Guarded ok s as)
  | _, [] => isTrue trivial
  | s, a :: as =>
    have : Decidable (match M.step s a with
      | some t => M.Guarded ok t as
      | none => True) :=
      match M.step s a with
      | some t => decidableGuarded M ok t as
      | none => isTrue trivial
    inferInstanceAs (Decidable (_ ∧ _))

/-- A guard that an invariant and the actions ensure lets the run through. -/
theorem guarded_of_forall {ok : S → A → Prop} {I : S → Prop} {P : A → Prop}
    (hok : ∀ s a, I s → P a → ok s a) (hstep : ∀ s a t, I s → P a → M.step s a = some t → I t)
    {s : S} (hs : I s) {as : List A} (has : ∀ a ∈ as, P a) : M.Guarded ok s as := by
  induction as generalizing s with
  | nil => trivial
  | cons a as ih =>
    obtain ⟨ha, has⟩ := List.forall_mem_cons.1 has
    refine ⟨hok s a hs ha, ?_⟩
    split
    · rename_i t ht
      exact ih (hstep s a t hs ha ht) has
    · trivial

theorem guarded_always (s : S) (as : List A) : M.Guarded always s as :=
  guarded_of_forall (I := fun _ => True) (P := fun _ => True) (fun _ _ _ _ => trivial)
    (fun _ _ _ _ _ _ => trivial) trivial fun _ _ => trivial

/-- Two guards that agree wherever an invariant holds let the same runs through, if the steps
one of them lets through keep the invariant. -/
theorem guarded_congr {ok ok' : S → A → Prop} {I : S → Prop}
    (hok : ∀ s a, I s → (ok s a ↔ ok' s a))
    (hstep : ∀ s a t, I s → ok s a → M.step s a = some t → I t) {s : S} {as : List A} (hs : I s) :
    M.Guarded ok s as ↔ M.Guarded ok' s as := by
  induction as generalizing s with
  | nil => rfl
  | cons a as ih =>
    refine (and_congr_right fun ha => ?_).trans (and_congr_left fun _ => hok s a hs)
    cases h : M.step s a with
    | none => rfl
    | some t => exact ih (hstep s a t hs ha h)

/-- What every guarded step keeps holds after a guarded run, if it holds before it. -/
theorem invariant_of_exec {ok : S → A → Prop} {I : S → Prop}
    (hstep : ∀ s a t, I s → ok s a → M.step s a = some t → I t) {s t : S} {as : List A} (hs : I s)
    (h : M.exec s as = some t) (hg : M.Guarded ok s as) : I t := by
  induction as generalizing s with
  | nil =>
    obtain rfl : s = t := by simpa using h
    exact hs
  | cons a as ih =>
    rw [exec_cons, Option.bind_eq_some_iff] at h
    obtain ⟨u, hu, h⟩ := h
    have hg' := hg.2
    rw [hu] at hg'
    exact ih (hstep s a u hs hg.1 hu) h hg'

/-- A list of actions run from a reachable state reaches a state. -/
theorem Reachable.exec {ok : S → A → Prop} {s : S} (hs : M.Reachable ok s) {as : List A} {t : S}
    (h : M.exec s as = some t) (hg : M.Guarded ok s as) : M.Reachable ok t :=
  invariant_of_exec (fun _ _ _ hs hok h => .step hs hok h) hs h hg

/-- A check of the state after a list of actions is one of a reachable state. -/
theorem Reachable.exists_of_exec {ok : S → A → Prop} {s : S} (hs : M.Reachable ok s) (as : List A)
    (p : S → Bool) (hg : M.Guarded ok s as) (h : (M.exec s as).any p = true) :
    ∃ t, M.Reachable ok t ∧ p t = true := by
  obtain ⟨t, ht, hp⟩ := (Option.any_eq_true _ _).1 h
  exact ⟨t, hs.exec ht hg, hp⟩

/-! ## History variables -/

variable (M)

/-- The machine with a history `H` : it starts as `h0` of the initial state, and
`next` records each step. -/
def withHistory {H : Type*} (h0 : S → H) (next : H → S → A → S → H) : Machine (S × H) A where
  init p := M.init p.1 ∧ p.2 = h0 p.1
  step p a := (M.step p.1 a).map fun t => (t, next p.2 p.1 a t)

variable {M} {H : Type*} {h0 : S → H} {next : H → S → A → S → H}

theorem withHistory_step {p q : S × H} {a : A} (h : (M.withHistory h0 next).step p a = some q) :
    M.step p.1 a = some q.1 ∧ q.2 = next p.2 p.1 a q.1 := by
  obtain ⟨t, ht, rfl⟩ := Option.map_eq_some_iff.1 h
  exact ⟨ht, rfl⟩

end Machine

end Machines
