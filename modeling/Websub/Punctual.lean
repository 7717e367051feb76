import Websub.Schedule
import Websub.Lib.Clock

/-!
# How late a renewal can be

The next tick is no later than the refresh time of any active row (`ScheduleInv`), and the timer of
the scheduler no later than the next tick, as far as no wake-up is outstanding (`SchedulerInv`). So
where the scheduler has nothing to do, no refresh time is over.

`punctual` is what follows for runs with a clock. If the scheduler is never busy for more than `d`
seconds, no row is active for more than `d` seconds after its refresh time, or after the start where
it was over then. So with a delay of no more than the margin none expires. The runs are those whose
ticks are stored in time, with leases that are longer than the margin (`Steady`).

A tick that fails ends the scheduler, which is busy from then on.
-/

namespace Websub

open Machines Tables Programs Http

variable {cs : Charset} {env : Env} {service : Service cs}

/-! ## The timer -/

/-- The task of the scheduler runs, or is woken, or about to be, or its timer has elapsed. -/
def Scheduler.Busy (s : Scheduler) (now : ℕ) : Prop :=
  s.phase ≠ .idle ∨ s.woken = true ∨ s.waking ≠ [] ∨ ∃ deadline ∈ s.sleep, deadline.toNat ≤ now

instance (s : Scheduler) (now : ℕ) : Decidable (s.Busy now) :=
  inferInstanceAs (Decidable (_ ∨ _ ∨ _ ∨ ∃ deadline ∈ s.sleep, deadline.toNat ≤ now))

/-- A refresh time is never the time that stands for no tick. -/
theorem refreshAt_ne_noTick (margin : UInt64) (e : Int64) : refreshAt margin e ≠ noTick := by
  intro h
  have hnat := toNat_refreshAt margin e
  have hlt : e.toInt < 2 ^ 63 := Int64.toInt_lt e
  rw [h] at hnat
  have hmax : noTick.toNat = 2 ^ 64 - 1 := rfl
  rw [hmax, Int64.toNatClampNeg] at hnat
  omega

/-- A scheduler with nothing to do has set its timer. -/
theorem SchedulerInv.lt_of_idle {since : Since} {s : Scheduler} {xs : List UInt64}
    (hi : SchedulerInv since (s, xs)) {now : ℕ} (hidle : ¬s.Busy now) {x : UInt64}
    (hx : x ≠ noTick) (hle : s.nextTick ≤ x) : now < x.toNat := by
  have hne : s.nextTick ≠ noTick := fun h => hx (noTick_le_iff.1 (h ▸ hle))
  unfold Scheduler.Busy at hidle
  push Not at hidle
  obtain ⟨hphase, hwoken, hwaking, hsleep⟩ := hidle
  have hcovers := hi.covers (by rw [hphase]; rfl) hne
  rcases hcovers.mono hle with ⟨d, hd, hdx⟩ | h | ⟨y, hy, -⟩
  · have hlt := hsleep d (by simpa [Scheduler.deadline, hphase] using hd)
    exact hlt.trans_le (UInt64.le_iff_toNat_le.1 hdx)
  · exact absurd h hwoken
  · rw [hwaking] at hy
    cases hy

/-- The steps of the system are steps of the scheduler, whose timer keeps up. -/
theorem Outcome.schedulerInv {s t : System cs} {a : SystemAction cs}
    (h : Outcome env service s a t) (hi : SchedulerInv .lowered (s.scheduler, []))
    (hok : ∀ i now, a = .verifyHasten i now → ∀ c ∈ s.calls[i]?,
      NoWrap env service.renewalMargin (expiryOf now c.leaseSeconds)) :
    SchedulerInv .lowered (t.scheduler, []) := by
  cases h with
  | @scheduler a _ own step =>
    have hintime : InTime (s.scheduler, []) a := by
      cases a with
      | hasten x => cases own
      | store => exact List.forall_mem_nil _
      | _ => trivial
    have hasked := schedulerInv_asked hi hintime (Scheduler.outcome_of_step step)
    cases a with
    | hasten x => cases own
    | _ => exact hasked
  | tickRenewFail ticking | tickReadFail ticking =>
    exact schedulerInv_asked (a := .fail) hi trivial (.fail ticking)
  | @tickRead _ next ticking =>
    exact schedulerInv_asked (a := .return next) hi trivial (.return ticking)
  | @verifyHasten i now c tick call stage refresh =>
    have htick : tick ≠ noTick := by
      rw [hastened_eq refresh (hok i now rfl c call)]
      exact refreshAt_ne_noTick _ _
    exact (schedulerInv_hasten hi (.inl htick)).shrink (List.nil_subset _) nofun
  | restart => exact schedulerInv_init (owing_init .lowered _)
  | _ => exact hi

/-! ## The deadlines -/

/-- The refresh times of the active rows, and of those that a call is about to activate. -/
def System.Due (margin : UInt64) (s : System cs) (x : ℕ) : Prop :=
  ∃ e, ((∃ r ∈ s.store, r.expiresAt = some e) ∨ ∃ c ∈ s.calls, e ∈ c.hastenedFor) ∧
    x = (refreshAt margin e).toNat

/-- The system with a clock. -/
def clocked (env : Env) (service : Service cs) (start : ℕ) :
    Machine ((System cs × List Int64) × Watch) (Timed (SystemAction cs)) :=
  (ticking env service).withClock (fun p now => p.1.scheduler.Busy now) start

/-- A call hastens the tick only for a lease that is longer than the margin. -/
def Outlasts (margin : UInt64) (s : System cs) (now : ℕ) : SystemAction cs → Prop
  | .verifyHasten i now' =>
    ∀ c ∈ s.calls[i]?, now < (refreshAt margin (expiryOf now' c.leaseSeconds)).toNat
  | _ => True

/-- The ticks are in time, and hubs grant leases that are longer than the margin. -/
def Steady (env : Env) (service : Service cs) (p : System cs × List Int64) (now : ℕ)
    (a : SystemAction cs) : Prop :=
  TicksInTime env service p a ∧ Outlasts service.renewalMargin p.1 now a

/-- What every step keeps. -/
structure PunctualInv (service : Service cs) (p : System cs × List Int64) : Prop where
  schedule : ScheduleInv service p
  scheduler : SchedulerInv .lowered (p.1.scheduler, [])

/-- At a start the timer covers what is in the store. -/
theorem punctualInv_init {p : System cs × List Int64} (h : (ticking env service).init p) :
    PunctualInv service p := by
  refine ⟨scheduleInv_init h, ?_⟩
  obtain ⟨⟨store, hstore⟩, -⟩ := h
  rw [hstore]
  exact schedulerInv_init (owing_init .lowered _)

/-- Every step of a steady run keeps the time and the timer ahead of the refresh times. -/
theorem punctualInv_step {p q : System cs × List Int64} {now : ℕ} {a : SystemAction cs}
    (hi : PunctualInv service p) (hok : Steady env service p now a)
    (h : (ticking env service).step p a = some q) : PunctualInv service q := by
  refine ⟨scheduleInv_step hi.schedule hok.1 h, ?_⟩
  have hout := System.outcome_of_step (Machine.withHistory_step h).1
  refine hout.schedulerInv hi.scheduler fun i now ha => ?_
  subst ha
  exact hok.1

/-- Where the scheduler has nothing to do no refresh time is over. -/
theorem PunctualInv.lt_of_idle {p : System cs × List Int64} (hi : PunctualInv service p) {now : ℕ}
    (hidle : ¬p.1.scheduler.Busy now) {x : ℕ} (hx : p.1.Due service.renewalMargin x) :
    now < x := by
  obtain ⟨e, hlive, rfl⟩ := hx
  refine hi.scheduler.lt_of_idle hidle (refreshAt_ne_noTick _ e) ?_
  rcases hlive with ⟨r, hr, he⟩ | ⟨c, hc, he⟩
  · exact hi.schedule.active r hr e he
  · exact hi.schedule.hastened c hc e he

/-- A step adds the refresh time of a call that hastens the tick, and no other. -/
theorem due_step {p q : System cs × List Int64} {now x : ℕ} {a : SystemAction cs}
    (hok : Steady env service p now a) (h : (ticking env service).step p a = some q)
    (hx : q.1.Due service.renewalMargin x) : p.1.Due service.renewalMargin x ∨ now < x := by
  have hout := System.outcome_of_step (Machine.withHistory_step h).1
  obtain ⟨e, ⟨r, hr, he⟩ | ⟨c, hc, he⟩, rfl⟩ := hx
  · refine .inl ⟨e, ?_, rfl⟩
    exact (hout.stored.active_origin hr he).imp (fun hold => ⟨r, hold, he⟩) id
  · cases hout.called hc with
    | kept call => exact .inl ⟨e, .inr ⟨c, call, he⟩, rfl⟩
    | hastened call =>
      obtain rfl := Option.some_inj.1 he
      exact .inr (hok.2 _ call)
    | read | answered | failed => cases he

/-- In a run whose scheduler is never busy for more than `d` seconds : no row is active for more
than `d` seconds after its refresh time, or after the start, and where the scheduler has nothing to
do, more than the margin is left of each. -/
theorem punctual {d start : ℕ} {p : (System cs × List Int64) × Watch}
    (hp : (clocked env service start).Reachable (Machine.Prompt d (Steady env service)) p)
    {r : Row} (hr : r ∈ p.1.1.store) {e : Int64} (he : r.expiresAt = some e) :
    (p.2.now : ℤ) ≤ max (e.toInt - service.renewalMargin.toNat) start + d ∧
      (¬p.1.1.scheduler.Busy p.2.now → p.2.now + service.renewalMargin.toNat < e.toInt) := by
  have h0 (p : System cs × List Int64) (h : (ticking env service).init p) :
      PunctualInv service p := punctualInv_init h
  have h1 (p : System cs × List Int64) (now : ℕ) (a : SystemAction cs) (q)
      (hi : PunctualInv service p) (hok : Steady env service p now a)
      (h : (ticking env service).step p a = some q) : PunctualInv service q :=
    punctualInv_step hi hok h
  have hdue : p.1.1.Due service.renewalMargin (refreshAt service.renewalMargin e).toNat :=
    ⟨e, .inl ⟨r, hr, he⟩, rfl⟩
  rw [toNat_refreshAt, Int64.toNatClampNeg] at hdue
  constructor
  · have hle := hp.le_deadline h0 h1 (fun _ _ _ hi hidle hx => hi.lt_of_idle hidle hx)
      (fun _ _ _ _ _ _ hok h hx => due_step hok h hx) hdue
    omega
  · intro hidle
    have hi : PunctualInv service p.1 := hp.withClock_invariant h0 h1
    have hlt := hi.lt_of_idle hidle hdue
    omega

instance (margin : UInt64) (s : System cs) (now : ℕ) : ∀ a, Decidable (Outlasts margin s now a)
  | .verifyHasten i now' => inferInstanceAs (Decidable (∀ c ∈ s.calls[i]?,
    now < (refreshAt margin (expiryOf now' c.leaseSeconds)).toNat))
  | .scheduler _ | .tickRenew _ _ | .tickRead _ | .renew _ _ | .subscribe _ _ _ _
  | .unsubscribe _ _ _ _ _ | .verifyRead _ _ _ _ | .verifyCommit _ _ | .respond _ _ | .restart =>
    .isTrue trivial

instance (p : System cs × List Int64) (now : ℕ) (a : SystemAction cs) :
    Decidable (Steady env service p now a) :=
  inferInstanceAs (Decidable (_ ∧ _))

/-- The subscription 2 is renewed by 7 at the start, which is verified five seconds later. -/
def punctualRun : List (Timed (SystemAction .http)) :=
  [.act (.scheduler .poll), .act (.scheduler .register), .act (.scheduler .load),
    .act (.scheduler (.check 95)), .act (.tickRenew 95 (exampleDraws [7])),
    .act (.tickRead (exampleDraws [])), .act (.scheduler .store), .act (.scheduler .reset),
    .wait, .wait, .wait, .wait, .wait, .act (.verifyRead 7 "other" 50 (exampleDraws [])),
    .act (.verifyHasten 0 100), .act (.verifyCommit 0 (exampleDraws [])), .wait]

/-- The subscription 2 is renewed by 7 at 95, which is confirmed at 100. -/
theorem punctual_example :
    ∃ (p : (System .http × List Int64) × Watch) (r : Row), p.2.now = 101 ∧ r ∈ p.1.1.store ∧
      r.expiresAt = some 150 ∧
      (p.2.now : ℤ) ≤
        max ((150 : Int64).toInt - exampleService.renewalMargin.toNat) (95 : ℕ) + (1 : ℕ) ∧
      (¬p.1.1.scheduler.Busy p.2.now →
        p.2.now + exampleService.renewalMargin.toNat < (150 : Int64).toInt) := by
  have hinit : (clocked exampleEnv exampleService 95).Reachable
      (Machine.Prompt 1 (Steady exampleEnv exampleService))
      ((exampleSystem (exampleStore "other" (some 100)), []), ⟨95, some 95⟩) :=
    .init ⟨⟨⟨_, rfl⟩, rfl⟩, by decide⟩
  obtain ⟨p, hp, hrow⟩ := hinit.exists_of_exec punctualRun
    (fun p => p.2.now = 101 ∧ ∃ r ∈ p.1.1.store.rows, r.expiresAt = some 150)
    (by decide +kernel) (by decide +kernel)
  obtain ⟨hnow, r, hr, he⟩ := of_decide_eq_true hrow
  exact ⟨p, r, hnow, hr, he, punctual hp hr he⟩

end Websub
