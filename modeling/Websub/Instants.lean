import Websub.Timer

/-!
# The two clocks of the scheduler

`util/time.rs`, and `Scheduler::new` and `Scheduler::poll` with the instants they set their
timer to. A tick is a Unix time, and a timer takes an `Instant`, so each tick is converted with
a reading of both clocks (`instantFromUnix`).

An instant before the start of the system need not be representable, and the conversion panics
if it is not. So a tick is safe on all platforms exactly if it is not before the start of the
system (`converts_iff`), while the callers take a tick at zero for one that is due.

`simulates_poll` is the reason why the other modules can do with Unix seconds : where the clocks
are consistent and no conversion panics, the scheduler is that of `AtomicScheduler`.

Instants and durations are nanoseconds.
-/

namespace Websub

variable {σ ι ε : Type}

/-! ## The code -/

/-- `std::time::Instant` on a platform. The times are counted from the start of the system. -/
structure Platform where
  represents : ℤ → Bool
  fromBoot : ∀ t, 0 ≤ t → represents t = true

/-- A reading of the monotonic clock, and of the wall clock, counted from the Unix epoch. -/
structure Reading where
  instant : ℕ
  wall : ℤ
deriving DecidableEq

/-- `Duration::from_secs`. -/
def fromSecs (secs : UInt64) : ℕ :=
  10 ^ 9 * secs.toNat

namespace Platform

variable (P : Platform)

/-- `Instant` plus `Duration`, `none` if it panics. -/
def add (t : ℤ) (d : ℕ) : Option ℤ :=
  if P.represents (t + d) then some (t + d) else none

/-- `Instant::checked_sub`. -/
def checkedSub (t : ℤ) (d : ℕ) : Option ℤ :=
  if P.represents (t - d) then some (t - d) else none

end Platform

/-- `now_unix`, `none` if it panics. -/
def Reading.nowUnix (r : Reading) : Option ℕ :=
  if 0 ≤ r.wall then some r.wall.toNat else none

/-- `instant_from_unix`, `none` if it panics. -/
def instantFromUnix (P : Platform) (r : Reading) (unix : ℕ) : Option ℤ :=
  r.nowUnix.bind fun nowUnix =>
    if nowUnix < unix then P.add r.instant (unix - nowUnix)
    else P.checkedSub r.instant (nowUnix - unix)

/-- `Handle::decode_next_tick`, `none` if it panics. -/
def decodeInstant (P : Platform) (r : Reading) (nextTick : UInt64) : Option (Option ℤ) :=
  match decodeNextTick nextTick with
  | some nextTick => (instantFromUnix P r (fromSecs nextTick)).map some
  | none => some none

/-- A `Scheduler` with its `Handle`, between two polls, and with the state of its callback. -/
structure InstantScheduler (σ : Type) where
  /-- `Handle::next_tick`. -/
  nextTick : UInt64
  /-- The deadline of the timer. -/
  sleep : Option ℤ
  tick : σ
deriving DecidableEq

/-- The clocks that a poll reads. -/
structure PollClocks where
  /-- Where the next tick is decoded. -/
  load : Reading
  /-- Where the timer is polled. -/
  timer : ℕ
  /-- Where the result of the callback is converted. -/
  reset : Reading
deriving DecidableEq

namespace InstantScheduler

variable (P : Platform)

/-- `Scheduler::new`, `none` if it panics. -/
def new (r : Reading) (nextTick : UInt64) (tick : σ) : Option (InstantScheduler σ) :=
  (decodeInstant P r nextTick).map fun sleep => ⟨nextTick, sleep, tick⟩

/-- The timer after `Scheduler::poll` has decoded the next tick. -/
def lower (sleep next : Option ℤ) : Option ℤ :=
  match sleep, next with
  | some deadline, some next => if next < deadline then some next else some deadline
  | some deadline, none => some deadline
  | none, next => next

/-- The end of `Scheduler::poll`, where the timer has elapsed. -/
def fire (callback : σ → ι → Except ε (Option UInt64) × σ) (i : ι) (r : Reading)
    (s : InstantScheduler σ) : Option (Except ε Unit × InstantScheduler σ) :=
  match callback s.tick i with
  | (.error e, tick) => some (.error e, { s with tick })
  | (.ok (some nextTick), tick) =>
    (instantFromUnix P r (fromSecs nextTick)).map fun t => (.ok (), ⟨nextTick, some t, tick⟩)
  | (.ok none, tick) => some (.ok (), ⟨noTick, none, tick⟩)

/-- `Scheduler::poll`, `none` if it panics. It is pending, or ends with the error of the
callback. -/
def poll (callback : σ → ι → Except ε (Option UInt64) × σ) (i : ι) (c : PollClocks)
    (s : InstantScheduler σ) : Option (Except ε Unit × InstantScheduler σ) :=
  (decodeInstant P c.load s.nextTick).bind fun next =>
    match lower s.sleep next with
    | none => some (.ok (), s)
    | some deadline =>
      if deadline ≤ c.timer then fire P callback i c.reset { s with sleep := some deadline }
      else some (.ok (), { s with sleep := some deadline })

end InstantScheduler

/-! ## The conversion -/

/-- The instant of a tick, counted from the start of the system. -/
def Reading.instantOf (r : Reading) (tick : UInt64) : ℤ :=
  r.instant + fromSecs tick - r.wall

/-- The wall clock is not before the Unix epoch, and the platform has the instant of the tick. -/
def Convertible (P : Platform) (r : Reading) (tick : UInt64) : Prop :=
  0 ≤ r.wall ∧ P.represents (r.instantOf tick) = true

instance (P : Platform) (r : Reading) (tick : UInt64) : Decidable (Convertible P r tick) :=
  inferInstanceAs (Decidable (_ ∧ _))

/-- A conversion returns, and its instant is not after now exactly if the tick is not. -/
def Converts (P : Platform) (r : Reading) (tick : UInt64) : Prop :=
  ∃ t, instantFromUnix P r (fromSecs tick) = some t ∧ (t ≤ r.instant ↔ fromSecs tick ≤ r.wall)

/-- The wall clock is not before the Unix epoch, and the tick is not before the start of the
system. -/
def AfterBoot (r : Reading) (tick : UInt64) : Prop :=
  0 ≤ r.wall ∧ r.wall ≤ r.instant + fromSecs tick

section Conversion

variable {P : Platform} {r : Reading} {tick : UInt64}

/-- Both branches are one difference. -/
theorem instantFromUnix_eq (P : Platform) (r : Reading) (tick : UInt64) :
    instantFromUnix P r (fromSecs tick) =
      if Convertible P r tick then some (r.instantOf tick) else none := by
  by_cases hwall : 0 ≤ r.wall
  · obtain ⟨now, hnow⟩ := Int.eq_ofNat_of_zero_le hwall
    have hunix : r.nowUnix = some now := by
      unfold Reading.nowUnix
      rw [hnow]
      exact if_pos (Int.natCast_nonneg now)
    have hinstant : r.instantOf tick = r.instant + fromSecs tick - now := by
      unfold Reading.instantOf
      rw [hnow]
    unfold instantFromUnix
    rw [hunix, Option.bind_some]
    by_cases hlt : now < fromSecs tick
    · have hsum : (r.instant : ℤ) + (fromSecs tick - now : ℕ) = r.instantOf tick := by omega
      simp [hlt, Platform.add, hsum, Convertible, hwall]
    · have hdiff : (r.instant : ℤ) - (now - fromSecs tick : ℕ) = r.instantOf tick := by omega
      simp [hlt, Platform.checkedSub, hdiff, Convertible, hwall]
  · simp [instantFromUnix, Reading.nowUnix, hwall, Convertible]

/-- A conversion that returns is right. -/
theorem converts_iff_convertible : Converts P r tick ↔ Convertible P r tick := by
  unfold Converts
  rw [instantFromUnix_eq]
  constructor
  · rintro ⟨t, ht, -⟩
    by_contra h
    rw [if_neg h] at ht
    cases ht
  · intro h
    refine ⟨_, if_pos h, ?_⟩
    unfold Reading.instantOf
    omega

/-- A platform without an instant before the start of the system. -/
def bootPlatform : Platform where
  represents t := 0 ≤ t
  fromBoot _ h := decide_eq_true h

theorem forall_convertible_iff : (∀ P, Convertible P r tick) ↔ AfterBoot r tick := by
  have hinstant : 0 ≤ r.instantOf tick ↔ r.wall ≤ r.instant + fromSecs tick := by
    unfold Reading.instantOf
    omega
  constructor
  · intro h
    obtain ⟨hwall, hboot⟩ := h bootPlatform
    exact ⟨hwall, hinstant.1 (of_decide_eq_true hboot)⟩
  · rintro ⟨hwall, hboot⟩ P
    exact ⟨hwall, P.fromBoot _ (hinstant.2 hboot)⟩

/-- The deadline of a next tick, if it is converted. -/
theorem decodeInstant_eq_some_iff {nextTick : UInt64} {sleep : Option ℤ} :
    decodeInstant P r nextTick = some sleep ↔
      (∀ n ∈ decodeNextTick nextTick, Convertible P r n) ∧
        (decodeNextTick nextTick).map r.instantOf = sleep := by
  unfold decodeInstant
  cases decodeNextTick nextTick with
  | none => simp
  | some n => by_cases h : Convertible P r n <;> simp [instantFromUnix_eq, h]

end Conversion

/-! ## Panics -/

namespace InstantScheduler

/-- The callback is run, and asks for this tick. -/
def Fires (callback : σ → ι → Except ε (Option UInt64) × σ) (i : ι) (c : PollClocks)
    (s : InstantScheduler σ) (n : UInt64) : Prop :=
  (∃ deadline ∈ lower s.sleep ((decodeNextTick s.nextTick).map c.load.instantOf),
    deadline ≤ c.timer) ∧ (callback s.tick i).1 = .ok (some n)

section Panics

variable {P : Platform} {r : Reading} {nextTick : UInt64} {tick : σ}
  {callback : σ → ι → Except ε (Option UInt64) × σ} {i : ι} {c : PollClocks}
  {s : InstantScheduler σ}

theorem isSome_new_iff :
    (new P r nextTick tick).isSome ↔ ∀ n ∈ decodeNextTick nextTick, Convertible P r n := by
  unfold new
  rw [Option.isSome_map, Option.isSome_iff_exists]
  simp only [decodeInstant_eq_some_iff, exists_and_left, exists_eq', and_true]

theorem isSome_fire_iff : (fire P callback i r s).isSome ↔
    ∀ n, (callback s.tick i).1 = .ok (some n) → Convertible P r n := by
  unfold fire
  split
  · rename_i e tick h
    simp [h]
  · rename_i n tick h
    rw [instantFromUnix_eq]
    simp [h]
  · rename_i tick h
    simp [h]

/-- A poll converts the next tick, and the one that its callback asks for. -/
theorem isSome_poll_iff : (poll P callback i c s).isSome ↔
    (∀ n ∈ decodeNextTick s.nextTick, Convertible P c.load n) ∧
      ∀ n, Fires callback i c s n → Convertible P c.reset n := by
  unfold poll Fires
  by_cases hload : ∀ n ∈ decodeNextTick s.nextTick, Convertible P c.load n
  · rw [decodeInstant_eq_some_iff.2 ⟨hload, rfl⟩, Option.bind_some]
    cases hlower : lower s.sleep ((decodeNextTick s.nextTick).map c.load.instantOf) with
    | none => simpa using hload
    | some deadline =>
      by_cases hdue : deadline ≤ c.timer
      · simp only [hdue, if_true, isSome_fire_iff]
        simpa [hdue] using fun _ => hload
      · simpa [hdue] using hload
  · have hnone : decodeInstant P c.load s.nextTick = none :=
      Option.eq_none_iff_forall_ne_some.2 fun _ hsome =>
        hload (decodeInstant_eq_some_iff.1 hsome).1
    rw [hnone]
    exact iff_of_false Bool.false_ne_true fun h => hload h.1

end Panics

end InstantScheduler

/-- For every reading of the clocks, on all platforms : the conversion of a tick is right,
and starting and polling a scheduler do not panic, exactly if no tick they convert is before the
start of the system, and the wall clock is not before the Unix epoch. -/
theorem converts_iff (callback : σ → ι → Except ε (Option UInt64) × σ) :
    (∀ r tick, (∀ P, Converts P r tick) ↔ AfterBoot r tick) ∧
    (∀ r nextTick (tick : σ), (∀ P, (InstantScheduler.new P r nextTick tick).isSome) ↔
      ∀ n ∈ decodeNextTick nextTick, AfterBoot r n) ∧
    ∀ i c s, (∀ P, (InstantScheduler.poll P callback i c s).isSome) ↔
      (∀ n ∈ decodeNextTick s.nextTick, AfterBoot c.load n) ∧
        ∀ n, InstantScheduler.Fires callback i c s n → AfterBoot c.reset n := by
  simp only [converts_iff_convertible, InstantScheduler.isSome_new_iff,
    InstantScheduler.isSome_poll_iff, ← forall_convertible_iff]
  refine ⟨fun _ _ => trivial, fun _ _ _ => ⟨fun h n hn P => h P n hn, fun h P n hn => h n hn P⟩,
    fun _ _ _ => ?_⟩
  exact ⟨fun h => ⟨fun n hn P => (h P).1 n hn, fun n hn P => (h P).2 n hn⟩,
    fun h P => ⟨fun n hn => h.1 n hn P, fun n hn => h.2 n hn P⟩⟩

/-- A subscription that expired while the system was down. -/
def expiredStore : Subscriptions :=
  ⟨[⟨1, "http://example.com/hub", "topic", "secret", some 1699000000⟩], by decide⟩

/-- One hour after the start of the system. -/
def restarted : Reading :=
  ⟨3600 * 10 ^ 9, 1700000000 * 10 ^ 9⟩

/-- The first tick is in the past, and starting the scheduler panics. -/
theorem not_converts_expired :
    firstTick 3600 expiredStore = some 1698996400 ∧
      ¬ Converts bootPlatform restarted 1698996400 ∧
      InstantScheduler.new bootPlatform restarted 1698996400 () = none := by
  refine ⟨by decide, ?_, by decide⟩
  rw [converts_iff_convertible]
  decide

/-! ## Unix seconds -/

/-- The clocks of a poll differ by the start of the system, and the timer is polled at this Unix
time. -/
structure Consistent (boot : ℤ) (c : PollClocks) (now : UInt64) : Prop where
  load : c.load.wall = c.load.instant + boot
  reset : c.reset.wall = c.reset.instant + boot
  reached : fromSecs now ≤ c.timer + boot
  next : c.timer + boot < fromSecs now + 10 ^ 9

/-- The instant of a tick, for a system that started then. -/
def instantAt (boot : ℤ) (tick : UInt64) : ℤ :=
  fromSecs tick - boot

/-- The scheduler is the one with Unix seconds. -/
structure SameTicks (boot : ℤ) (s : InstantScheduler σ) (t : AtomicScheduler σ) : Prop where
  nextTick : s.nextTick = t.nextTick
  sleep : s.sleep = t.sleep.map (instantAt boot)
  tick : s.tick = t.tick

section Seconds

variable {P : Platform} {r : Reading} {boot : ℤ} {c : PollClocks}
  {s : InstantScheduler σ} {t : AtomicScheduler σ}

theorem instantOf_eq (h : r.wall = r.instant + boot) (tick : UInt64) :
    r.instantOf tick = instantAt boot tick := by
  unfold Reading.instantOf instantAt
  omega

theorem instantAt_lt_iff (boot : ℤ) (a b : UInt64) :
    instantAt boot a < instantAt boot b ↔ a < b := by
  rw [UInt64.lt_iff_toNat_lt]
  unfold instantAt fromSecs
  omega

/-- The timer has elapsed exactly if the second of its tick is reached. -/
theorem instantAt_le_iff {now : UInt64} (h : Consistent boot c now) (tick : UInt64) :
    instantAt boot tick ≤ c.timer ↔ tick ≤ now := by
  rw [UInt64.le_iff_toNat_le]
  have hreached := h.reached
  have hnext := h.next
  unfold fromSecs at hreached hnext
  unfold instantAt fromSecs
  omega

theorem lower_map (boot : ℤ) (sleep next : Option UInt64) :
    InstantScheduler.lower (sleep.map (instantAt boot)) (next.map (instantAt boot)) =
      (adjustSleep sleep next).map (instantAt boot) := by
  cases sleep with
  | none => rfl
  | some deadline =>
    cases next with
    | none => rfl
    | some next =>
      simp only [InstantScheduler.lower, adjustSleep, Option.map_some, instantAt_lt_iff]
      split <;> rfl

theorem decodeInstant_of_boot (h : r.wall = r.instant + boot) {nextTick : UInt64}
    {sleep : Option ℤ} (hs : decodeInstant P r nextTick = some sleep) :
    sleep = (decodeNextTick nextTick).map (instantAt boot) := by
  rw [← (decodeInstant_eq_some_iff.1 hs).2, funext (instantOf_eq h)]

theorem sameTicks_new (h : r.wall = r.instant + boot) (firstTick : Option UInt64) (now : UInt64)
    {tick : σ} (hs : InstantScheduler.new P r (firstTick.getD noTick) tick = some s) :
    SameTicks boot s (.new firstTick now tick) := by
  obtain ⟨sleep, hsleep, rfl⟩ := Option.map_eq_some_iff.1 hs
  exact ⟨rfl, decodeInstant_of_boot h hsleep, rfl⟩

variable {callback : σ → ι → Except ε (Option UInt64) × σ} {i : ι}
  {p : Except ε Unit × InstantScheduler σ}

theorem SameTicks.fire (h : SameTicks boot s t) (hr : r.wall = r.instant + boot)
    (hp : s.fire P callback i r = some p) :
    p.1 = (t.fire callback i).1 ∧ SameTicks boot p.2 (t.fire callback i).2 := by
  unfold InstantScheduler.fire at hp
  unfold AtomicScheduler.fire
  rw [h.tick] at hp
  cases hc : callback t.tick i with
  | mk result tick =>
    rw [hc] at hp
    cases result with
    | error e =>
      obtain rfl := Option.some_inj.1 hp
      exact ⟨rfl, h.nextTick, h.sleep, rfl⟩
    | ok next =>
      cases next with
      | none =>
        obtain rfl := Option.some_inj.1 hp
        exact ⟨rfl, rfl, rfl, rfl⟩
      | some nextTick =>
        obtain ⟨deadline, hdeadline, rfl⟩ := Option.map_eq_some_iff.1 hp
        rw [instantFromUnix_eq, Option.ite_none_right_eq_some, Option.some_inj,
          instantOf_eq hr] at hdeadline
        exact ⟨rfl, rfl, congrArg some hdeadline.2.symm, rfl⟩

/-- A poll that does not panic is that of a scheduler with Unix seconds. -/
theorem simulates_poll (h : SameTicks boot s t) (hc : Consistent boot c t.now)
    (hp : s.poll P callback i c = some p) :
    p.1 = (t.poll callback i).1 ∧ SameTicks boot p.2 (t.poll callback i).2 := by
  unfold InstantScheduler.poll at hp
  unfold AtomicScheduler.poll
  obtain ⟨next, hnext, hp⟩ := Option.bind_eq_some_iff.1 hp
  have hdecode := decodeInstant_of_boot hc.load hnext
  rw [h.nextTick] at hdecode
  rw [hdecode, h.sleep, lower_map] at hp
  cases hadjust : adjustSleep t.sleep (decodeNextTick t.nextTick) with
  | none =>
    rw [hadjust] at hp
    obtain rfl := Option.some_inj.1 hp
    exact ⟨rfl, h⟩
  | some deadline =>
    rw [hadjust] at hp
    have hlow : SameTicks boot { s with sleep := some (instantAt boot deadline) }
        { t with sleep := some deadline } := ⟨h.nextTick, rfl, h.tick⟩
    simp only [Option.map_some, instantAt_le_iff hc] at hp
    by_cases hdue : deadline ≤ t.now
    · simp only [hdue, if_true] at hp ⊢
      exact hlow.fire hc.reset hp
    · simp only [hdue, if_false] at hp ⊢
      obtain rfl := Option.some_inj.1 hp
      exact ⟨rfl, hlow⟩

end Seconds

end Websub
