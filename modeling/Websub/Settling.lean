import Websub.Punctual
import Websub.Sequential

/-!
# The scheduler catches up

`punctual` bounds how late a renewal is by how long the scheduler is busy. That it need not be busy
for any time is `settles` : from where its task is not polled, and no verification is between
hastening the tick and its transaction, the steps of the task alone lead to where there is nothing
to do, if the tick returns. The tick it runs is at least two seconds ahead, so it does not run
another.
-/

namespace Websub

open Machines Tables Programs Http

variable {cs : Charset} {env : Env} {service : Service cs}

/-! ## Between the polls -/

/-- The handle is there, and a renewal is only left without its read inside of the callback. -/
structure Rests (s : System cs) : Prop where
  alive : s.scheduler.dropped = false
  renewed : s.renewed = true → s.scheduler.phase = .ticking

/-- The scheduler's own steps neither drop the handle nor leave the callback. -/
theorem Scheduler.Outcome.rests_of_own {s t : Scheduler} {a : SchedulerAction} (h : s.Outcome a t)
    (ha : a.own = true) : t.dropped = s.dropped ∧ (s.phase = .ticking → t.phase = .ticking) := by
  cases h with
  | hasten | drop | «return» | fail => cases ha
  | wake | fire => exact ⟨rfl, fun h => h⟩
  | check => exact ⟨rfl, fun _ => rfl⟩
  | poll before | pollDropped before | register before | load before | loadUnset before
  | checkPending before | store before | reset before =>
    exact ⟨rfl, fun h => by cases before.symm.trans h⟩

/-- Every step leaves the handle there, and the callback to finish its renewal. -/
theorem Rests.step {s t : System cs} {a : SystemAction cs} (hi : Rests s)
    (h : s.step env service a = some t) : Rests t := by
  cases System.outcome_of_step h with
  | scheduler own step =>
    obtain ⟨hdropped, hphase⟩ := (Scheduler.outcome_of_step step).rests_of_own own
    exact ⟨hdropped.trans hi.alive, fun hr => hphase (hi.renewed hr)⟩
  | tickRenew ticking => exact ⟨hi.alive, fun _ => ticking⟩
  | tickRenewFail _ _ renewed =>
    exact ⟨hi.alive, fun hr => absurd (renewed.symm.trans hr) Bool.false_ne_true⟩
  | tickRead | tickReadFail => exact ⟨hi.alive, fun hr => absurd hr Bool.false_ne_true⟩
  | restart => exact ⟨rfl, fun hr => absurd hr Bool.false_ne_true⟩
  | _ => exact ⟨hi.alive, hi.renewed⟩

/-- In every prompt run the scheduler rests between its polls. -/
theorem rests_of_reachable {d start : ℕ} {p : (System cs × List Int64) × Watch}
    (hp : (clocked env service start).Reachable (Machine.Prompt d (Steady env service)) p) :
    Rests p.1.1 := by
  refine hp.withClock_invariant (I := fun p => Rests p.1) ?_ ?_
  · rintro p ⟨⟨store, hs⟩, -⟩
    rw [hs]
    exact ⟨rfl, fun hr => absurd hr Bool.false_ne_true⟩
  · intro p now a q hi _ h
    exact hi.step (Machine.withHistory_step h).1

/-! ## The steps of the task -/

/-- A step of the scheduler's task, of its callback, or of a wake-up. -/
def SystemAction.ofTask : SystemAction cs → Bool
  | .scheduler _ | .tickRenew _ _ | .tickRead _ => true
  | _ => false

/-- The guard of a steady run of the scheduler's task. -/
def OfTask (env : Env) (service : Service cs) (p : System cs × List Int64) (now : ℕ)
    (a : SystemAction cs) : Prop :=
  Steady env service p now a ∧ a.ofTask = true

section Task

variable {s : System cs} {ids : List Int64} {now : ℕ}

/-- The scheduler's steps activate no row. -/
theorem ticking_step_scheduler {t : System cs} {a : SchedulerAction}
    (h : s.step env service (.scheduler a) = some t) (hsame : t.store = s.store) :
    (ticking env service).step (s, ids) (.scheduler a) = some (t, ids) := by
  have hnone : (t.store.select fun r => r.expiresAt.isSome && r ∉ s.store.rows) = [] := by
    rw [hsame]
    refine List.filter_eq_nil_iff.2 fun r hr => ?_
    simp [hr]
  have hids : activatedSince ids s (.scheduler a) t =
    (t.store.select fun r => r.expiresAt.isSome && r ∉ s.store.rows).map Row.id ++ ids := rfl
  rw [hnone] at hids
  exact Option.map_eq_some_iff.2 ⟨t, h, Prod.ext rfl hids⟩

/-- A step of the scheduler's task is one of the system, at the same time. -/
theorem leads_own {a : SchedulerAction} {t : Scheduler} (ha : a.own = true) (hne : a ≠ .store)
    (h : s.scheduler.step a = some t) :
    (ticking env service).Leads (fun p a => OfTask env service p now a) (s, ids)
      ({ s with scheduler := t }, ids) := by
  have hsteady : Steady env service (s, ids) now (.scheduler a) := by
    cases a with
    | store => exact absurd rfl hne
    | _ => exact ⟨trivial, trivial⟩
  have hstep : s.step env service (.scheduler a) = some { s with scheduler := t } := by
    simp only [System.step]
    rw [if_pos ha, h]
    rfl
  exact .single (a := .scheduler a) ⟨hsteady, rfl⟩ (ticking_step_scheduler hstep rfl)

/-- A tick that returns, from where it is called to where the timer is reset to its result. -/
theorem leads_tick (ids : List Int64) (now : ℕ) (hticking : s.scheduler.phase = .ticking)
    (hrenewed : s.renewed = false) (hcalls : ∀ c ∈ s.calls, c.hastenedFor = none) {now' : UInt64}
    (hw : env.overflowChecks = true ∨ now'.toNat + service.renewalMargin.toNat + 1 < 2 ^ 64)
    {draws : Draws} {next : Option UInt64} {w : World (Task cs)}
    (h : service.tick env now' (s.world draws) = (.ok next, w)) :
    ∃ q, (ticking env service).Leads (fun p a => OfTask env service p now a) (s, ids) q ∧
      q.1.scheduler = { s.scheduler with
        nextTick := next.getD noTick, sleep := next, phase := .idle } := by
  obtain ⟨v, hv, hstore, -, -, htick⟩ := Service.ok_of_tick h
  have hcommitted : v.committed = v.store := by
    have hkeeps := Service.keeps_renewSubscriptions env service now' (s.world draws)
    rw [hv] at hkeeps
    exact committed_of_saved hkeeps.saved
  have hrenew : s.step env service (.tickRenew now' draws) = some (s.renewedBy v) := by
    simp only [System.step]
    rw [if_pos ⟨hticking, hrenewed⟩, hv]
    rfl
  -- the read of the next expiry is one that does not fail
  let d : Draws := ⟨fun _ => none, [], draws.fills⟩
  have hresult : (service.readTick env ((s.renewedBy v).world d)).1 = .ok next := by
    have hread : (getNextExpiry : Db (Task cs) (Option Int64)) ((s.renewedBy v).world d) =
        (.ok v.committed.getNextExpiry, ((s.renewedBy v).world d).queried) := query_of_none _ rfl
    unfold Service.readTick
    rw [Prog.bind_of_ok hread, hcommitted]
    simp only [htick]
    rfl
  have hread := System.step_tickRead (s := s.renewedBy v) env service hticking rfl d
  rw [hresult] at hread
  have hnoWrap : ∀ m ∈ (s.renewedBy v).store.getNextExpiry,
      NoWrap env service.renewalMargin m := by
    have hsame : (s.renewedBy v).store = w.store := hcommitted.trans hstore.symm
    rw [hsame]
    exact Service.noWrap_of_tick hw h
  let t : System cs := { s.renewedBy v with
    scheduler := { s.scheduler with phase := .returned next }, renewed := false }
  have hleads : (ticking env service).Leads (fun p a => OfTask env service p now a) (s, ids)
      (t, []) := by
    refine Machine.Leads.trans (.single (a := .tickRenew now' draws) ⟨⟨trivial, trivial⟩, rfl⟩
      (Option.map_eq_some_iff.2 ⟨_, hrenew, rfl⟩)) ?_
    exact .single (a := .tickRead d) ⟨⟨hnoWrap, trivial⟩, rfl⟩
      (Option.map_eq_some_iff.2 ⟨_, hread, rfl⟩)
  let u : System cs := { t with
    scheduler := { t.scheduler with nextTick := next.getD noTick, phase := .stored next } }
  have hstored : (ticking env service).Leads (fun p a => OfTask env service p now a) (t, [])
      (u, []) := by
    have hsteady : Steady env service (t, []) now (.scheduler .store) := by
      refine ⟨⟨fun r _ hnew => absurd hnew List.not_mem_nil, fun c hc e he => ?_⟩, trivial⟩
      rw [hcalls c hc] at he
      cases he
    exact .single (a := .scheduler .store) ⟨hsteady, rfl⟩ (ticking_step_scheduler rfl rfl)
  exact ⟨_, hleads.trans (hstored.trans (leads_own (a := .reset) rfl (by simp) rfl)), rfl⟩

/-- A scheduler that sleeps until later has nothing to do. -/
theorem Scheduler.not_busy {s : Scheduler} (hphase : s.phase = .idle) (hwoken : s.woken = false)
    (hwaking : s.waking = []) (hsleep : ∀ deadline ∈ s.sleep, now < deadline.toNat) :
    ¬s.Busy now := by
  rintro (h | h | h | ⟨deadline, hd, hle⟩)
  · exact h hphase
  · exact Bool.false_ne_true (hwoken.symm.trans h)
  · exact h hwaking
  · exact absurd (hsleep deadline hd) (Nat.not_lt.2 hle)

section Poll

variable {now' : UInt64} {draws : Draws} {next : Option UInt64} {w : World (Task cs)}

/-- One poll, where every wake-up has arrived. -/
theorem leads_poll (hidle : s.scheduler.phase = .idle) (halive : s.scheduler.dropped = false)
    (hrenewed : s.renewed = false) (hcalls : ∀ c ∈ s.calls, c.hastenedFor = none)
    (hw : env.overflowChecks = true ∨ now'.toNat + service.renewalMargin.toNat + 1 < 2 ^ 64)
    (h : service.tick env now' (s.world draws) = (.ok next, w))
    (hwaking : s.scheduler.waking = []) :
    ∃ q, (ticking env service).Leads (fun p a => OfTask env service p now'.toNat a) (s, ids) q ∧
      ¬q.1.scheduler.Busy now'.toNat := by
  let polled : Scheduler := { s.scheduler with woken := false, phase := .entered }
  have hpoll : s.scheduler.step .poll = some polled := by
    simp [Scheduler.step, hidle, halive, polled]
  let registered : Scheduler := { polled with registered := true, phase := .registered }
  have hload : (ticking env service).Leads (fun p a => OfTask env service p now'.toNat a) (s, ids)
      ({ s with scheduler := registered.load }, ids) := by
    refine (leads_own (a := .poll) rfl (by simp) hpoll).trans ?_
    refine (leads_own (a := .register) (t := registered) rfl (by simp) rfl).trans ?_
    exact leads_own (a := .load) rfl (by simp) rfl
  cases hd : adjustSleep s.scheduler.sleep (decodeNextTick s.scheduler.nextTick) with
  | none =>
    have hloaded : registered.load = { registered with sleep := none, phase := .idle } := by
      simp [Scheduler.load, registered, polled, hd]
    rw [hloaded] at hload
    exact ⟨_, hload, Scheduler.not_busy rfl rfl hwaking (by simp)⟩
  | some deadline =>
    have hloaded : registered.load =
        { registered with sleep := some deadline, phase := .loaded } := by
      simp [Scheduler.load, registered, polled, hd]
    rw [hloaded] at hload
    have hcheck := hload.trans (leads_own (a := .check now') rfl (by simp) rfl)
    by_cases hdue : deadline ≤ now'
    · rw [if_pos hdue] at hcheck
      let ticking : System cs := { s with
        scheduler := { registered with sleep := some deadline, phase := .ticking } }
      obtain ⟨q, hleads, hq⟩ := leads_tick (s := ticking) ids now'.toNat rfl hrenewed hcalls hw h
      refine ⟨q, hcheck.trans hleads, ?_⟩
      rw [hq]
      refine Scheduler.not_busy rfl rfl hwaking fun tick htick => ?_
      have hahead := Service.ahead_of_tick hw h htick
      omega
    · rw [if_neg hdue] at hcheck
      refine ⟨_, hcheck, Scheduler.not_busy rfl rfl hwaking fun tick htick => ?_⟩
      obtain rfl := Option.some_inj.1 htick
      exact UInt64.lt_iff_toNat_lt.1 (UInt64.not_le.1 hdue)

/-- The wake-ups that are under way, and one poll. -/
theorem leads_settled (hidle : s.scheduler.phase = .idle) (halive : s.scheduler.dropped = false)
    (hrenewed : s.renewed = false) (hcalls : ∀ c ∈ s.calls, c.hastenedFor = none)
    (hw : env.overflowChecks = true ∨ now'.toNat + service.renewalMargin.toNat + 1 < 2 ^ 64)
    (h : service.tick env now' (s.world draws) = (.ok next, w)) :
    ∃ q, (ticking env service).Leads (fun p a => OfTask env service p now'.toNat a) (s, ids) q ∧
      ¬q.1.scheduler.Busy now'.toNat := by
  generalize hwaking : s.scheduler.waking = waking
  induction waking generalizing s with
  | nil => exact leads_poll hidle halive hrenewed hcalls hw h hwaking
  | cons x waking ih =>
    let woken : Scheduler := { s.scheduler with waking }.wake
    have hwake : s.scheduler.step (.wake x) = some woken := by
      simp [Scheduler.step, hwaking, woken]
    obtain ⟨q, hleads, hq⟩ := ih (s := { s with scheduler := woken }) hidle halive hrenewed hcalls
      h rfl
    exact ⟨q, (leads_own (a := .wake x) rfl (by simp) hwake).trans hleads, hq⟩

end Poll

end Task

/-- From every state of a prompt run in which the task of the scheduler is not polled and no call is
between hastening the tick and its transaction : if a tick returns, then steps of the task, and of
no other party, lead to a state with nothing to do, and the clock has not moved. -/
theorem settles {d start : ℕ} {p : (System cs × List Int64) × Watch}
    (hp : (clocked env service start).Reachable (Machine.Prompt d (Steady env service)) p)
    (hidle : p.1.1.scheduler.phase = .idle) (hcalls : ∀ c ∈ p.1.1.calls, c.hastenedFor = none)
    {now : UInt64} (hnow : p.2.now = now.toNat)
    (hw : env.overflowChecks = true ∨ now.toNat + service.renewalMargin.toNat + 1 < 2 ^ 64)
    {draws : Draws} {next : Option UInt64} {w : World (Task cs)}
    (h : service.tick env now (p.1.1.world draws) = (.ok next, w)) :
    ∃ q, (clocked env service start).Leads (Machine.Prompt d (OfTask env service)) p
      (q, ⟨now.toNat, none⟩) := by
  have hrests := rests_of_reachable hp
  have hrenewed : p.1.1.renewed = false := by
    refine Bool.eq_false_iff.2 fun hr => ?_
    have hticking := hrests.renewed hr
    rw [hidle] at hticking
    cases hticking
  obtain ⟨⟨s, ids⟩, now', since⟩ := p
  obtain rfl : now' = now.toNat := hnow
  obtain ⟨q, hleads, hq⟩ := leads_settled hidle hrests.alive hrenewed hcalls hw h
  exact ⟨q, hleads.withClock hq since⟩

/-- The subscription 2 is due at the start, and renewed by 7. -/
theorem settles_example : ∃ q, (clocked exampleEnv exampleService 95).Leads
    (Machine.Prompt 0 (OfTask exampleEnv exampleService))
    ((exampleSystem (exampleStore "other" (some 100)), []), ⟨95, some 95⟩)
    (q, ⟨(95 : UInt64).toNat, none⟩) := by
  have hinit : (clocked exampleEnv exampleService 95).Reachable
      (Machine.Prompt 0 (Steady exampleEnv exampleService))
      ((exampleSystem (exampleStore "other" (some 100)), []), ⟨95, some 95⟩) :=
    .init ⟨⟨⟨_, rfl⟩, rfl⟩, by decide⟩
  have htick : exampleService.tick exampleEnv 95
      ((exampleSystem (exampleStore "other" (some 100))).world (exampleDraws [7])) =
        (.ok none, _) := Prod.ext (by decide +kernel) rfl
  exact settles hinit rfl (List.forall_mem_nil _) rfl (.inl rfl) htick

end Websub
