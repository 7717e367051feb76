import Websub.Lib.Machine

/-!
# Machines with a clock

A machine whose actions take no time, and between them the clock moves by one (`Timed.wait`). It is
busy while it has something to do, which depends on the state and the time, and the clock keeps
since when that has been so. A run is `Prompt` with the delay `d` if the clock never moves while the
machine has been busy for `d` already.

`Reachable.le_deadline` is the rule for machines that have deadlines : if no deadline is over where
the machine has nothing to do, and new deadlines are in the future, then none is missed by more
than the delay.
-/

namespace Machines

/-- The time, and since when there has been something to do. -/
structure Watch where
  now : ℕ
  since : Option ℕ
deriving DecidableEq

/-- An action, or the next moment. -/
inductive Timed (A : Type*)
  | act (a : A)
  | wait

namespace Machine

variable {S A : Type*} (M : Machine S A) (busy : S → ℕ → Prop) [∀ s now, Decidable (busy s now)]

/-- The clock at a time, in a state that is reached when it was last `since`. -/
def clockAt (since : Option ℕ) (s : S) (now : ℕ) : Watch :=
  ⟨now, if busy s now then some (since.getD now) else none⟩

/-- The machine with a clock. -/
def withClock (start : ℕ) : Machine (S × Watch) (Timed A) where
  init p := M.init p.1 ∧ p.2 = clockAt busy none p.1 start
  step p
    | .act a => (M.step p.1 a).map fun t => (t, clockAt busy p.2.since t p.2.now)
    | .wait => some (p.1, clockAt busy p.2.since p.1 (p.2.now + 1))

/-- The actions meet a guard that reads the time, and the clock only moves while there has been
nothing to do for `d`. -/
def Prompt (d : ℕ) (ok : S → ℕ → A → Prop) (p : S × Watch) : Timed A → Prop
  | .act a => ok p.1 p.2.now a
  | .wait => ∀ t ∈ p.2.since, p.2.now < t + d

instance (d : ℕ) (ok : S → ℕ → A → Prop) [∀ s now a, Decidable (ok s now a)] (p : S × Watch) :
    ∀ a, Decidable (Prompt d ok p a)
  | .act a => inferInstanceAs (Decidable (ok p.1 p.2.now a))
  | .wait => inferInstanceAs (Decidable (∀ t ∈ p.2.since, p.2.now < t + d))

variable {M busy}

/-- A deadline is at or after the moment since when there has been something to do, or after the
present where there is nothing. -/
structure Deadlines (busy : S → ℕ → Prop) (due : S → ℕ → Prop) (d start : ℕ) (p : S × Watch) :
    Prop where
  idle : p.2.since = none → ¬busy p.1 p.2.now
  le : ∀ t ∈ p.2.since, t ≤ p.2.now ∧ p.2.now ≤ t + d ∧ ∀ x, due p.1 x → t ≤ max x start

/-- What is due later than the present is so at whatever moment the machine becomes busy. -/
theorem deadlines_clockAt {due : S → ℕ → Prop} {d start now : ℕ} {since : Option ℕ} {s : S}
    (hle : ∀ t ∈ since, t ≤ now ∧ now ≤ t + d ∧ ∀ x, due s x → t ≤ max x start)
    (hnone : since = none → ∀ x, due s x → now ≤ max x start) :
    Deadlines busy due d start (s, clockAt busy since s now) := by
  unfold clockAt
  by_cases hbusy : busy s now
  · rw [if_pos hbusy]
    refine ⟨nofun, fun t ht => ?_⟩
    obtain rfl := Option.some_inj.1 ht
    cases since with
    | none => exact ⟨le_rfl, Nat.le_add_right _ _, hnone rfl⟩
    | some t => exact hle t rfl
  · rw [if_neg hbusy]
    exact ⟨fun _ => hbusy, nofun⟩

section Deadlines

variable {d start : ℕ} {ok : S → ℕ → A → Prop} {I : S → Prop} {due : S → ℕ → Prop}

theorem deadlines_step (hidle : ∀ s now x, I s → ¬busy s now → due s x → now < x)
    (hnew : ∀ s now a t x, I s → ok s now a → M.step s a = some t → due t x → due s x ∨ now < x)
    {p q : S × Watch} {a : Timed A} (hi : I p.1) (h : Deadlines busy due d start p)
    (hok : Prompt d ok p a) (hst : (M.withClock busy start).step p a = some q) :
    Deadlines busy due d start q := by
  have hnow : p.2.since = none → ∀ x, due p.1 x → p.2.now < x := fun hnone x hx =>
    hidle _ _ x hi (h.idle hnone) hx
  cases a with
  | act a =>
    obtain ⟨t, ht, rfl⟩ := Option.map_eq_some_iff.1 hst
    refine deadlines_clockAt (fun t' ht' => ?_) fun hnone x hx => ?_
    · obtain ⟨hle, hprompt, hdue⟩ := h.le t' ht'
      refine ⟨hle, hprompt, fun x hx => ?_⟩
      rcases hnew _ _ a t x hi hok ht hx with hx | hx
      · exact hdue x hx
      · exact le_max_of_le_left (hle.trans hx.le)
    · rcases hnew _ _ a t x hi hok ht hx with hx | hx
      · exact le_max_of_le_left (hnow hnone x hx).le
      · exact le_max_of_le_left hx.le
  | wait =>
    obtain rfl := Option.some_inj.1 hst
    refine deadlines_clockAt (fun t' ht' => ?_) fun hnone x hx => ?_
    · obtain ⟨hle, -, hdue⟩ := h.le t' ht'
      have hprompt : p.2.now < t' + d := hok t' ht'
      exact ⟨by omega, by omega, hdue⟩
    · exact le_max_of_le_left (hnow hnone x hx)

/-- What the actions keep, the clock leaves alone. -/
theorem withClock_keeps (h1 : ∀ s now a t, I s → ok s now a → M.step s a = some t → I t)
    {p q : S × Watch} {a : Timed A} (hi : I p.1) (hok : Prompt d ok p a)
    (hst : (M.withClock busy start).step p a = some q) : I q.1 := by
  cases a with
  | act a =>
    obtain ⟨t, ht, rfl⟩ := Option.map_eq_some_iff.1 hst
    exact h1 _ _ a t hi hok ht
  | wait =>
    obtain rfl := Option.some_inj.1 hst
    exact hi

theorem Reachable.withClock_invariant (h0 : ∀ s, M.init s → I s)
    (h1 : ∀ s now a t, I s → ok s now a → M.step s a = some t → I t) {p : S × Watch}
    (hp : (M.withClock busy start).Reachable (Prompt d ok) p) : I p.1 := by
  refine hp.invariant (I := fun p => I p.1) ?_ fun _ _ _ hi hok hst => withClock_keeps h1 hi hok hst
  rintro ⟨s, c⟩ ⟨hinit, -⟩
  exact h0 s hinit

/-- In a prompt run no deadline is missed by more than the delay, except for those that are over at
the start, which count from there. -/
theorem Reachable.le_deadline (h0 : ∀ s, M.init s → I s)
    (h1 : ∀ s now a t, I s → ok s now a → M.step s a = some t → I t)
    (hidle : ∀ s now x, I s → ¬busy s now → due s x → now < x)
    (hnew : ∀ s now a t x, I s → ok s now a → M.step s a = some t → due t x → due s x ∨ now < x)
    {p : S × Watch} (hp : (M.withClock busy start).Reachable (Prompt d ok) p) {x : ℕ}
    (hx : due p.1 x) : p.2.now ≤ max x start + d := by
  have hdeadlines : Deadlines busy due d start p := by
    -- a step keeps the deadlines where the invariant holds, so the two go together
    refine (hp.invariant (I := fun p => I p.1 ∧ Deadlines busy due d start p) ?_ ?_).2
    · rintro ⟨s, c⟩ ⟨hinit, hc⟩
      obtain rfl : c = clockAt busy none s start := hc
      exact ⟨h0 s hinit, deadlines_clockAt nofun fun _ x _ => le_max_right _ _⟩
    · rintro p a q ⟨hi, hd⟩ hok hst
      exact ⟨withClock_keeps h1 hi hok hst, deadlines_step hidle hnew hi hd hok hst⟩
  cases hsince : p.2.since with
  | none =>
    have hi : I p.1 := hp.withClock_invariant h0 h1
    have hlt := hidle _ _ x hi (hdeadlines.idle hsince) hx
    omega
  | some t =>
    obtain ⟨-, hprompt, hdue⟩ := hdeadlines.le t hsince
    have hle := hdue x hx
    omega

end Deadlines

/-! ## Runs that take no time -/

/-- Some guarded steps lead from a state to another. -/
def Leads (M : Machine S A) (ok : S → A → Prop) : S → S → Prop :=
  Relation.TransGen fun s t => ∃ a, ok s a ∧ M.step s a = some t

theorem Leads.single {ok : S → A → Prop} {s t : S} {a : A} (hok : ok s a)
    (h : M.step s a = some t) : M.Leads ok s t :=
  Relation.TransGen.single ⟨a, hok, h⟩

theorem Leads.trans {ok : S → A → Prop} {s t u : S} (h : M.Leads ok s t) (h' : M.Leads ok t u) :
    M.Leads ok s u :=
  Relation.TransGen.trans h h'

/-- Actions that lead to a state with nothing to do leave the clock free to move. -/
theorem Leads.withClock {d start now : ℕ} {ok : S → ℕ → A → Prop} {s t : S}
    (h : M.Leads (fun s a => ok s now a) s t) (hidle : ¬busy t now) (since : Option ℕ) :
    (M.withClock busy start).Leads (Prompt d ok) (s, ⟨now, since⟩) (t, ⟨now, none⟩) := by
  have hlast : ∃ since', (M.withClock busy start).Leads (Prompt d ok) (s, ⟨now, since⟩)
      (t, clockAt busy since' t now) := by
    clear hidle
    induction h with
    | single h =>
      obtain ⟨a, hok, hst⟩ := h
      exact ⟨since, .single (a := .act a) hok (Option.map_eq_some_iff.2 ⟨_, hst, rfl⟩)⟩
    | tail _ h ih =>
      obtain ⟨a, hok, hst⟩ := h
      obtain ⟨since', hleads⟩ := ih
      exact ⟨_, hleads.trans (.single (a := .act a) hok (Option.map_eq_some_iff.2 ⟨_, hst, rfl⟩))⟩
  obtain ⟨since', hleads⟩ := hlast
  unfold clockAt at hleads
  rwa [if_neg hidle] at hleads

end Machine

end Machines
