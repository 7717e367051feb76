import Websub.Activation

/-!
# The next tick and the expiries

The next tick is an atomic number, the expiries are in the store, and the calls of
`verify_intent` and the scheduler's task change both in several steps. A subscription that
is active has to be renewed at its refresh time, so the next tick has to be no later.

`schedule_covers` is that invariant, for the runs in which no refresh time wraps and no
result of a tick is stored that is later than the refresh time of a call that has hastened
the tick while it was computed. `renewal_missed` is a run in which one is.
-/

namespace Websub

open Machines Tables Programs Http

variable {cs : Charset} {env : Env} {service : Service cs}

/-! ## Refresh times -/

/-- The refresh time of an expiry, saturating at zero. -/
def refreshAt (margin : UInt64) (expiresAt : Int64) : UInt64 :=
  saturatingSub ((u64TryFrom expiresAt).getD 0) margin

/-- The refresh time of the expiry does not wrap. -/
def NoWrap (env : Env) (margin : UInt64) (expiresAt : Int64) : Prop :=
  env.overflowChecks = true ∨ ∀ e ∈ u64TryFrom expiresAt, margin ≤ e

/-- Saturating subtraction is that of the naturals. -/
theorem toNat_saturatingSub (a b : UInt64) : (saturatingSub a b).toNat = a.toNat - b.toNat := by
  unfold saturatingSub
  split
  · rename_i h
    exact UInt64.toNat_sub_of_le _ _ h
  · rename_i h
    rw [UInt64.le_iff_toNat_le] at h
    simp
    omega

/-- The refresh time as a natural number. -/
theorem toNat_refreshAt (margin : UInt64) (expiresAt : Int64) :
    (refreshAt margin expiresAt).toNat = expiresAt.toNatClampNeg - margin.toNat := by
  unfold refreshAt
  rw [toNat_saturatingSub, u64TryFrom]
  split
  · rename_i h
    rw [Option.getD_some, Int64.toNat_toUInt64_of_le h]
  · rename_i h
    have hneg : expiresAt.toNatClampNeg = 0 := by
      rw [Int64.le_iff_toInt_le] at h
      rw [Int64.toNatClampNeg]
      simp at h
      omega
    rw [hneg]
    simp

/-- What expires later is refreshed no earlier. -/
theorem refreshAt_mono (margin : UInt64) {e e' : Int64} (h : e ≤ e') :
    refreshAt margin e ≤ refreshAt margin e' := by
  rw [UInt64.le_iff_toNat_le, toNat_refreshAt, toNat_refreshAt]
  have : e.toNatClampNeg ≤ e'.toNatClampNeg := Int.toNat_le_toNat (Int64.le_iff_toInt_le.1 h)
  omega

/-- Where plain subtraction does not wrap it saturates nowhere. -/
theorem refreshTime_eq {e tick : UInt64} (h : service.refreshTime env e = some tick)
    (hw : env.overflowChecks = true ∨ service.renewalMargin ≤ e) :
    tick = saturatingSub e service.renewalMargin := by
  unfold Service.refreshTime u64Sub at h
  split at h
  · cases h
  · rename_i hlt
    have hle : service.renewalMargin ≤ e := by
      rcases hw with hc | hle
      · exact UInt64.not_lt.1 fun hlt' => hlt ⟨hc, hlt'⟩
      · exact hle
    unfold saturatingSub
    rw [if_pos hle]
    exact (Option.some_inj.1 h).symm

/-- An expiry is never negative. -/
theorem u64TryFrom_expiryOf (now leaseSeconds : UInt64) :
    u64TryFrom (expiryOf now leaseSeconds) = some (expiryOf now leaseSeconds).toUInt64 := by
  refine if_pos ?_
  unfold expiryOf i64TryFrom
  split
  · rename_i h
    have hnat : (saturatingAdd now leaseSeconds).toInt64.toInt =
        (saturatingAdd now leaseSeconds).toNat :=
      BitVec.toInt_eq_toNat_of_lt (by simpa using by omega)
    rw [Option.getD_some, Int64.le_iff_toInt_le, hnat]
    simp
  · decide

/-- The time a call hastens the tick to. -/
theorem hastened_eq {now leaseSeconds tick : UInt64}
    (h : service.refreshTime env (expiryOf now leaseSeconds).toUInt64 = some tick)
    (hw : NoWrap env service.renewalMargin (expiryOf now leaseSeconds)) :
    tick = refreshAt service.renewalMargin (expiryOf now leaseSeconds) := by
  unfold NoWrap at hw
  rw [u64TryFrom_expiryOf] at hw
  unfold refreshAt
  rw [u64TryFrom_expiryOf, Option.getD_some]
  exact refreshTime_eq h (hw.imp_right fun h => h _ rfl)

/-- The result of a tick that reads an expiry. -/
theorem tickAt_eq {e : Int64} {next : Option UInt64} (h : service.tickAt env (some e) = some next)
    (hw : NoWrap env service.renewalMargin e) :
    next = some (refreshAt service.renewalMargin e) := by
  rw [Service.tickAt] at h
  rw [refreshAt]
  cases hu : u64TryFrom e with
  | none =>
    rw [hu] at h
    rw [← Option.some_inj.1 h]
    simp [saturatingSub]
  | some u =>
    rw [hu] at h
    obtain ⟨tick, htick, rfl⟩ := Option.map_eq_some_iff.1 h
    unfold NoWrap at hw
    rw [hu] at hw
    rw [refreshTime_eq htick (hw.imp_right fun h => h u rfl), Option.getD_some]

/-! ## The least expiry -/

/-- The first of a sorted list is no later than any other. -/
theorem head_insertionSort_le {l : List Int64} {m : Int64}
    (h : (l.insertionSort (· ≤ ·)).head? = some m) : ∀ e ∈ l, m ≤ e := by
  have : Std.Total (α := Int64) (· ≤ ·) := ⟨Int64.le_total⟩
  have : IsTrans Int64 (· ≤ ·) := ⟨fun _ _ _ => Int64.le_trans⟩
  have hsorted := List.pairwise_insertionSort (· ≤ ·) l
  intro e he
  rw [← List.mem_insertionSort (· ≤ ·)] at he
  obtain ⟨l', hl⟩ := List.head?_eq_some_iff.1 h
  rw [hl] at hsorted he
  rcases List.mem_cons.1 he with rfl | he
  · exact Int64.le_refl e
  · exact (List.pairwise_cons.1 hsorted).1 e he

/-- The expiry that is read is the least. -/
theorem exists_getNextExpiry {t : Subscriptions} {r : Row} (hr : r ∈ t) {e : Int64}
    (he : r.expiresAt = some e) : ∃ m, t.getNextExpiry = some m ∧ m ≤ e := by
  have hmem : e ∈ t.rows.filterMap Row.expiresAt := List.mem_filterMap.2 ⟨r, hr, he⟩
  cases hm : t.getNextExpiry with
  | none =>
    unfold Subscriptions.getNextExpiry at hm
    rw [List.head?_eq_none_iff] at hm
    rw [← List.mem_insertionSort (· ≤ ·), hm] at hmem
    cases hmem
  | some m => exact ⟨m, rfl, head_insertionSort_le hm e hmem⟩

/-- The first tick is no later than the refresh time of any active row. -/
theorem firstTick_le {margin : UInt64} {t : Subscriptions} {r : Row} (hr : r ∈ t) {e : Int64}
    (he : r.expiresAt = some e) : (firstTick margin t).getD noTick ≤ refreshAt margin e := by
  obtain ⟨m, hm, hle⟩ := exists_getNextExpiry hr he
  unfold firstTick
  rw [hm]
  exact refreshAt_mono margin hle

/-- The tick after a read is no later than the refresh time of any row that was active then. -/
theorem tickAt_le {t : Subscriptions} {next : Option UInt64}
    (h : service.tickAt env t.getNextExpiry = some next)
    (hw : ∀ m ∈ t.getNextExpiry, NoWrap env service.renewalMargin m) {r : Row} (hr : r ∈ t)
    {e : Int64} (he : r.expiresAt = some e) :
    next.getD noTick ≤ refreshAt service.renewalMargin e := by
  obtain ⟨m, hm, hle⟩ := exists_getNextExpiry hr he
  rw [hm] at h
  rw [tickAt_eq h (hw m hm)]
  exact refreshAt_mono _ hle

/-! ## The runs -/

/-- The next tick is no later than the refresh time of any active subscription. -/
def Scheduled (service : Service cs) (s : System cs) : Prop :=
  ∀ r ∈ s.store, ∀ e ∈ r.expiresAt,
    s.scheduler.nextTick.toNat ≤ e.toNatClampNeg - service.renewalMargin.toNat

/-- The expiry that a call has hastened the tick for, and not yet given its row. -/
def Call.hastenedFor (c : Call) : Option Int64 :=
  match c.stage with
  | .hastened expiresAt => some expiresAt
  | _ => none

/-- The ids of the rows that were activated since the tick has last read the next expiry. -/
def activatedSince (ids : List Int64) (s : System cs) :
    SystemAction cs → System cs → List Int64
  | .tickRead _, _ => []
  | _, t => ((t.store.select fun r => r.expiresAt.isSome && r ∉ s.store.rows).map Row.id) ++ ids

/-- The system, with the rows that the result of a tick does not know of. -/
def ticking (env : Env) (service : Service cs) :
    Machine (System cs × List Int64) (SystemAction cs) :=
  (system env service).withHistory (fun _ => []) activatedSince

/-- No refresh time wraps, and the result of a tick is stored only if it is no later than
the refresh times of the rows that were activated since its read, and of the calls that
have hastened the tick and not yet run their transaction. -/
def TicksInTime (env : Env) (service : Service cs) (p : System cs × List Int64) :
    SystemAction cs → Prop
  | .verifyHasten i now =>
    ∀ c ∈ p.1.calls[i]?, NoWrap env service.renewalMargin (expiryOf now c.leaseSeconds)
  | .tickRead _ => ∀ m ∈ p.1.store.getNextExpiry, NoWrap env service.renewalMargin m
  | .scheduler .store =>
    (∀ r ∈ p.1.store, r.id ∈ p.2 → ∀ e ∈ r.expiresAt,
      p.1.scheduler.phase.result ≤ refreshAt service.renewalMargin e) ∧
    ∀ c ∈ p.1.calls, ∀ e ∈ c.hastenedFor,
      p.1.scheduler.phase.result ≤ refreshAt service.renewalMargin e
  | _ => True

/-- What every step keeps. -/
structure ScheduleInv (service : Service cs) (p : System cs × List Int64) : Prop where
  active : ∀ r ∈ p.1.store, ∀ e, r.expiresAt = some e →
    p.1.scheduler.nextTick ≤ refreshAt service.renewalMargin e
  /-- The calls that are about to activate a row have hastened the tick. -/
  hastened : ∀ c ∈ p.1.calls, ∀ e ∈ c.hastenedFor,
    p.1.scheduler.nextTick ≤ refreshAt service.renewalMargin e
  /-- The result that is about to be stored knows the rows that were there at its read. -/
  returned : ∀ next, p.1.scheduler.phase = .returned next → ∀ r ∈ p.1.store, ∀ e,
    r.expiresAt = some e → r.id ∈ p.2 ∨ next.getD noTick ≤ refreshAt service.renewalMargin e

/-- At a start the first tick covers the store. -/
theorem scheduleInv_init {p : System cs × List Int64} (h : (ticking env service).init p) :
    ScheduleInv service p := by
  obtain ⟨s, ids⟩ := p
  obtain ⟨⟨store, rfl⟩, -⟩ := h
  refine ⟨fun r hr e he => firstTick_le hr he, fun c hc => ?_, fun next hp => ?_⟩
  · cases hc
  cases hp

/-- An active row after a step was so before it, or is of a call that has hastened the
tick. -/
theorem Stored.active_origin {s t : System cs} {a : SystemAction cs}
    (h : Stored env service s t a) {r : Row} (hr : r ∈ t.store) {e : Int64}
    (he : r.expiresAt = some e) :
    r ∈ s.store ∨ ∃ c ∈ s.calls, e ∈ c.hastenedFor := by
  cases h with
  | same store => exact .inl (store ▸ hr)
  | created rows =>
    rcases (Table.mem_iff_of_rows rows).1 hr with hr | rfl
    · exact .inl hr
    · cases he
  | deleted store =>
    rw [store] at hr
    exact .inl (Table.mem_delete.1 hr).1
  | renewed action store => exact .inl (store.mem_of_active hr (by simp [he]))
  | @activated i d c expiresAt tasks call stage store =>
    obtain ⟨q, hq, -, rfl⟩ := store.mem_iff.1 hr
    by_cases hid : q.id = c.id.toInt64
    · rw [Row.activate_of_eq hid] at he
      obtain rfl := Option.some_inj.1 he
      exact .inr ⟨c, List.mem_of_getElem? call, by rw [Call.hastenedFor, stage]; rfl⟩
    · rw [Row.activate_of_ne hid]
      exact .inl hq

/-- Every step in time keeps the next tick no later than the refresh times of the active rows,
and of the calls that have hastened it. -/
theorem scheduleInv_step {p q : System cs × List Int64} {a : SystemAction cs}
    (hi : ScheduleInv service p) (hok : TicksInTime env service p a)
    (h : (ticking env service).step p a = some q) : ScheduleInv service q := by
  obtain ⟨s, ids⟩ := p
  obtain ⟨t, ids'⟩ := q
  obtain ⟨hst, hids⟩ := Machine.withHistory_step h
  replace hids : ids' = activatedSince ids s a t := hids
  have hout := System.outcome_of_step hst
  have hbound {r : Row} (hr : r ∈ t.store) {e : Int64} (he : r.expiresAt = some e) :
      s.scheduler.nextTick ≤ refreshAt service.renewalMargin e := by
    rcases hout.stored.active_origin hr he with hr | ⟨c, hc, hstage⟩
    · exact hi.active r hr e he
    · exact hi.hastened c hc e hstage
  refine ⟨fun r hr e he => ?_, fun c hc e hstage => ?_, fun next hp r hr e he => ?_⟩
  · cases hout.ticked with
    | same nextTick => exact nextTick ▸ hbound hr he
    | lowered nextTick =>
      rw [nextTick]
      exact fetchMin_le_iff.2 (.inl (hbound hr he))
    | @stored next phase nextTick store =>
      rw [nextTick]
      rw [store] at hr
      rcases hi.returned next phase r hr e he with hnew | hle
      · have hle := hok.1 r hr hnew e he
        rwa [phase] at hle
      · exact hle
    | restarted nextTick store =>
      rw [nextTick]
      exact firstTick_le (store ▸ hr) he
  · cases hout.called hc with
    | kept call =>
      have hle := hi.hastened c call e hstage
      cases hout.ticked with
      | same nextTick => exact nextTick ▸ hle
      | lowered nextTick =>
        rw [nextTick]
        exact fetchMin_le_iff.2 (.inl hle)
      | @stored next phase nextTick =>
        have hle := hok.2 c call e hstage
        rw [phase] at hle
        rw [nextTick]
        exact hle
      | restarted nextTick store calls =>
        rw [calls] at hc
        cases hc
    | read => cases hstage
    | hastened call stage refresh scheduler =>
      obtain rfl := Option.some_inj.1 hstage
      rw [scheduler]
      refine fetchMin_le_iff.2 (.inr ?_)
      rw [hastened_eq refresh (hok _ call)]
      exact UInt64.le_refl _
    | answered => cases hstage
    | failed => cases hstage
  · cases hout.returned hp with
    | kept phase action =>
      have hids : ids' = ((t.store.select fun r => r.expiresAt.isSome && r ∉ s.store.rows).map
          Row.id) ++ ids := by
        rw [hids]
        cases a with
        | tickRead d => exact absurd rfl (action d)
        | _ => rfl
      by_cases hold : r ∈ s.store
      · refine (hi.returned next phase r hold e he).imp_left fun hr => ?_
        rw [hids]
        exact List.mem_append_right _ hr
      · refine .inl ?_
        rw [hids]
        refine List.mem_append_left _ (List.mem_map_of_mem (Table.mem_select.2 ⟨hr, ?_⟩))
        rw [Table.mem_def] at hold
        simp [he, hold]
    | read tick store => exact .inr (tickAt_le tick hok (store ▸ hr) he)

/-- In the runs whose ticks are in time the next tick is no later than the refresh time of
any active subscription. -/
theorem schedule_covers {p : System cs × List Int64}
    (hp : (ticking env service).Reachable (TicksInTime env service) p) : Scheduled service p.1 := by
  have hi : ScheduleInv service p :=
    hp.invariant (fun _ h => scheduleInv_init h) fun _ _ _ hi hok h => scheduleInv_step hi hok h
  intro r hr e he
  rw [← toNat_refreshAt, ← UInt64.le_iff_toNat_le]
  exact hi.active r hr e he

-- stated again to be found before the instance that goes through all of `Int64`
instance decidableForallMem {α : Type} {P : α → Prop} [DecidablePred P] (o : Option α) :
    Decidable (∀ a ∈ o, P a) :=
  Option.decidableForallMem o

instance (service : Service cs) (s : System cs) : Decidable (Scheduled service s) :=
  inferInstanceAs (Decidable (∀ r ∈ s.store.rows, ∀ e ∈ r.expiresAt,
    s.scheduler.nextTick.toNat ≤ e.toNatClampNeg - service.renewalMargin.toNat))

instance (margin : UInt64) (e : Int64) : Decidable (NoWrap env margin e) :=
  inferInstanceAs (Decidable (_ ∨ ∀ u ∈ u64TryFrom e, margin ≤ u))

instance (p : System cs × List Int64) : ∀ a, Decidable (TicksInTime env service p a)
  | .verifyHasten i now => inferInstanceAs (Decidable (∀ c ∈ p.1.calls[i]?,
    NoWrap env service.renewalMargin (expiryOf now c.leaseSeconds)))
  | .tickRead _ => inferInstanceAs (Decidable (∀ m ∈ p.1.store.getNextExpiry,
    NoWrap env service.renewalMargin m))
  | .scheduler .store => inferInstanceAs (Decidable ((∀ r ∈ p.1.store.rows, r.id ∈ p.2 →
      ∀ e ∈ r.expiresAt, p.1.scheduler.phase.result ≤ refreshAt service.renewalMargin e) ∧
    ∀ c ∈ p.1.calls, ∀ e ∈ c.hastenedFor,
      p.1.scheduler.phase.result ≤ refreshAt service.renewalMargin e))
  | .scheduler (.hasten _) | .scheduler (.wake _) | .scheduler (.fire _) | .scheduler .drop
  | .scheduler .poll | .scheduler .register | .scheduler .load | .scheduler (.check _)
  | .scheduler (.return _) | .scheduler .fail | .scheduler .reset
  | .tickRenew _ _ | .renew _ _ | .subscribe _ _ _ _ | .unsubscribe _ _ _ _ _
  | .verifyRead _ _ _ _ | .verifyCommit _ _ | .respond _ _ | .restart => .isTrue trivial

/-- The subscription 2 is renewed at 95, which leaves no active one, and the subscription 1
is verified once the tick has stored its result. -/
def renewThenVerifyRun : List (SystemAction .http) :=
  [.scheduler .poll, .scheduler .register, .scheduler .load, .scheduler (.check 95),
    .tickRenew 95 (exampleDraws [7]), .tickRead (exampleDraws []), .scheduler .store,
    .scheduler .reset, .verifyRead 1 "topic" 50 (exampleDraws []), .verifyHasten 0 96,
    .verifyCommit 0 (exampleDraws [])]

/-- A verification whose call hastens the tick. -/
theorem schedule_covers_verify :
    ∃ s : System .http, s.scheduler.nextTick = 136 ∧ Scheduled exampleService s := by
  have hinit : (ticking exampleEnv exampleService).Reachable
      (TicksInTime exampleEnv exampleService)
      (exampleSystem (exampleStore "other" (some 100)), []) := .init ⟨⟨_, rfl⟩, rfl⟩
  obtain ⟨p, hp, hnext⟩ := hinit.exists_of_exec renewThenVerifyRun
    (fun p => p.1.scheduler.nextTick = 136) (by decide +kernel) (by decide +kernel)
  exact ⟨p.1, of_decide_eq_true hnext, schedule_covers hp⟩

/-- The subscription 1 is verified while the tick renews : it hastens the tick before the
result is stored, and is activated after the tick has read the next expiry. -/
def overwriteRun : List (SystemAction .http) :=
  [.scheduler .poll, .scheduler .register, .scheduler .load, .scheduler (.check 95),
    .tickRenew 95 (exampleDraws [7]), .verifyRead 1 "topic" 50 (exampleDraws []),
    .verifyHasten 0 95, .tickRead (exampleDraws []), .scheduler .store, .scheduler .reset,
    .verifyCommit 0 (exampleDraws [])]

/-- No call is in the middle, and the subscription that was activated has no tick. -/
theorem renewal_missed :
    ∃ s, (system exampleEnv exampleService).Reachable Machine.always s ∧
      s.calls.all (fun c => !c.inFlight) = true ∧ s.scheduler.phase = .idle ∧
        ¬ Scheduled exampleService s := by
  have hinit : (system exampleEnv exampleService).Reachable Machine.always
      (exampleSystem (exampleStore "other" (some 100))) := .init ⟨_, rfl⟩
  obtain ⟨s, hs, hmissed⟩ := hinit.exists_of_exec overwriteRun
    (fun s => s.calls.all (fun c => !c.inFlight) = true ∧ s.scheduler.phase = .idle ∧
      ¬ Scheduled exampleService s)
    (Machine.guarded_always _ _) (by decide +kernel)
  exact ⟨s, hs, of_decide_eq_true hmissed⟩

end Websub
