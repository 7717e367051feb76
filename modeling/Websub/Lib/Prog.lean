import Mathlib

/-!
# Programs with a state that can stop

A `Prog σ ε α` reads and writes a state and either returns a value or stops with an `ε`.
The state survives a stop, so what a program did before it stopped can be asked about.

A run that returns is taken apart from its value : `ok_of_bind` gives the state and the
value between two programs, `ok_of_each_cons` the state between two rounds of a loop. A run
known to return or to stop in its first part is computed with `bind_of_ok` and
`bind_of_error`. A relation that is kept by the parts of a program is kept by the program,
however it ends (`Within.bind`). A program that does what another does, on another state,
simulates it (`Simulates.map`).
-/

namespace Programs

/-- Programs over the state `σ` that may stop with an `ε`. -/
def Prog (σ ε α : Type) : Type :=
  σ → Except ε α × σ

namespace Prog

variable {σ ε α β : Type}

/-- Return a value. -/
protected def pure (a : α) : Prog σ ε α := fun s => (.ok a, s)

/-- Run one program, and the next with its value. -/
protected def bind (x : Prog σ ε α) (f : α → Prog σ ε β) : Prog σ ε β := fun s =>
  match x s with
  | (.ok a, t) => f a t
  | (.error e, t) => (.error e, t)

instance : Monad (Prog σ ε) where
  pure := Prog.pure
  bind := Prog.bind

/-- Stop. -/
def stop (e : ε) : Prog σ ε α := fun s => (.error e, s)

/-- Change the state. -/
def modify (f : σ → σ) : Prog σ ε Unit := fun s => (.ok (), f s)

/-- Run a program for each element of a list, in order. -/
def each : List β → (β → Prog σ ε Unit) → Prog σ ε Unit
  | [], _ => pure ()
  | b :: bs, f => do
    f b
    each bs f

theorem bind_apply (x : Prog σ ε α) (f : α → Prog σ ε β) (s : σ) :
    (x >>= f) s = match x s with
      | (.ok a, t) => f a t
      | (.error e, t) => (.error e, t) :=
  rfl

@[simp] theorem pure_apply (a : α) (s : σ) : (pure a : Prog σ ε α) s = (.ok a, s) :=
  rfl

@[simp] theorem stop_apply (e : ε) (s : σ) : (stop e : Prog σ ε α) s = (.error e, s) :=
  rfl

@[simp] theorem modify_apply (f : σ → σ) (s : σ) : (modify f : Prog σ ε Unit) s = (.ok (), f s) :=
  rfl

theorem bind_of_ok {x : Prog σ ε α} {s t : σ} {a : α} (h : x s = (.ok a, t))
    (f : α → Prog σ ε β) : (x >>= f) s = f a t := by
  rw [bind_apply, h]

theorem bind_of_error {x : Prog σ ε α} {s t : σ} {e : ε} (h : x s = (.error e, t))
    (f : α → Prog σ ε β) : (x >>= f) s = (.error e, t) := by
  rw [bind_apply, h]

theorem map_of_ok {x : Prog σ ε α} {s t : σ} {a : α} (h : x s = (.ok a, t)) (f : α → β) :
    (f <$> x) s = (.ok (f a), t) :=
  bind_of_ok h _

theorem map_of_error {x : Prog σ ε α} {s t : σ} {e : ε} (h : x s = (.error e, t)) (f : α → β) :
    (f <$> x) s = (.error e, t) :=
  bind_of_error h _

theorem bind_assoc {γ : Type} (x : Prog σ ε α) (f : α → Prog σ ε β) (g : β → Prog σ ε γ) :
    x >>= f >>= g = x >>= fun a => f a >>= g := by
  funext s
  rw [bind_apply, bind_apply, bind_apply]
  cases x s with
  | mk r t =>
    cases r with
    | ok a => rfl
    | error e => rfl

theorem ok_of_bind {x : Prog σ ε α} {f : α → Prog σ ε β} {s u : σ} {b : β}
    (h : (x >>= f) s = (.ok b, u)) : ∃ a t, x s = (.ok a, t) ∧ f a t = (.ok b, u) := by
  rw [bind_apply] at h
  cases hx : x s with
  | mk r t =>
    cases r with
    | ok a => exact ⟨a, t, rfl, by rwa [hx] at h⟩
    | error e => simp [hx] at h

theorem error_of_bind {x : Prog σ ε α} {f : α → Prog σ ε β} {s u : σ} {e : ε}
    (h : (x >>= f) s = (.error e, u)) :
    x s = (.error e, u) ∨ ∃ a t, x s = (.ok a, t) ∧ f a t = (.error e, u) := by
  cases hx : x s with
  | mk r t =>
    cases r with
    | ok a => exact .inr ⟨a, t, rfl, by rwa [bind_of_ok hx] at h⟩
    | error e' =>
      obtain ⟨he, rfl⟩ := Prod.mk.inj ((bind_of_error hx f).symm.trans h)
      exact .inl (by rw [Except.error.inj he])

theorem ok_of_each_nil {f : β → Prog σ ε Unit} {s t : σ} (h : each [] f s = (.ok (), t)) :
    s = t :=
  (Prod.mk.inj h).2

theorem ok_of_each_cons {f : β → Prog σ ε Unit} {b : β} {bs : List β} {s u : σ}
    (h : each (b :: bs) f s = (.ok (), u)) :
    ∃ t, f b s = (.ok (), t) ∧ each bs f t = (.ok (), u) := by
  obtain ⟨⟨⟩, t, h1, h2⟩ := ok_of_bind h
  exact ⟨t, h1, h2⟩

/-! ## How a program moves its state -/

/-- However the program ends, the state it leaves is related to the one it started in. -/
def Within (R : σ → σ → Prop) (x : Prog σ ε α) : Prop :=
  ∀ s, R s (x s).2

namespace Within

variable {R : σ → σ → Prop}

theorem bind (htrans : ∀ ⦃s t u⦄, R s t → R t u → R s u) {x : Prog σ ε α}
    {f : α → Prog σ ε β} (hx : Within R x) (hf : ∀ a, Within R (f a)) :
    Within R (x >>= f) := by
  intro s
  have h := hx s
  rw [bind_apply]
  cases hxs : x s with
  | mk r t =>
    rw [hxs] at h
    cases r with
    | ok a => exact htrans h (hf a t)
    | error e => exact h

theorem each (hrefl : ∀ s, R s s) (htrans : ∀ ⦃s t u⦄, R s t → R t u → R s u)
    {f : β → Prog σ ε Unit} (hf : ∀ b, Within R (f b)) : ∀ l : List β, Within R (Prog.each l f)
  | [] => fun s => hrefl s
  | b :: l => bind htrans (hf b) fun _ => each hrefl htrans hf l

end Within

/-! ## Two programs -/

/-- Both return the same value, or both stop, and the states are related. -/
inductive Alike {τ δ : Type} (R : σ → τ → Prop) (E : ε → δ → Prop) :
    Except ε α × σ → Except δ α × τ → Prop
  | ok {a : α} {s : σ} {t : τ} (h : R s t) : Alike R E (.ok a, s) (.ok a, t)
  | error {e : ε} {d : δ} {s : σ} {t : τ} (he : E e d) (h : R s t) :
    Alike R E (.error e, s) (.error d, t)

/-- From related states the programs end alike. -/
def Simulates {τ δ : Type} (R : σ → τ → Prop) (E : ε → δ → Prop) (x : Prog σ ε α)
    (y : Prog τ δ α) : Prop :=
  ∀ s t, R s t → Alike R E (x s) (y t)

namespace Simulates

variable {τ δ : Type} {R : σ → τ → Prop} {E : ε → δ → Prop}

theorem pure (a : α) : Simulates R E (pure a : Prog σ ε α) (pure a : Prog τ δ α) :=
  fun _ _ h => .ok h

theorem bind {x : Prog σ ε α} {y : Prog τ δ α} {f : α → Prog σ ε β} {g : α → Prog τ δ β}
    (hx : Simulates R E x y) (hf : ∀ a, Simulates R E (f a) (g a)) :
    Simulates R E (x >>= f) (y >>= g) := by
  intro s t h
  have hxy := hx s t h
  rw [bind_apply, bind_apply]
  cases hxs : x s with
  | mk r s' =>
    cases hyt : y t with
    | mk q t' =>
      rw [hxs, hyt] at hxy
      cases hxy with
      | ok h' => exact hf _ _ _ h'
      | error he h' => exact .error he h'

theorem map {x : Prog σ ε α} {y : Prog τ δ α} (h : Simulates R E x y) (f : α → β) :
    Simulates R E (f <$> x) (f <$> y) :=
  h.bind fun a => Simulates.pure (f a)

end Simulates

end Prog

end Programs
