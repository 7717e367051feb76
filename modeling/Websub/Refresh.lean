import Websub.Schedule

/-!
# Renewal times

Four sites compute with an expiry and the renewal margin. `build_service` subtracts
saturating at zero, `verify_intent` and `Tick::tick` with a plain minus, and
`renew_subscriptions` adds with a plain plus and unwraps a conversion. `Agree` is that they
compute the same saturating times, without a panic and without wrapping.

They do so exactly where nothing saturates (`agree_iff`) : the three times have to be in
range, whether the build checks for overflow or not.
-/

namespace Websub

open Http

variable {cs : Charset} {env : Env} {service : Service cs}

/-! ## The sites, in seconds -/

/-- An addition that returns, and does not wrap, is that of the naturals. -/
theorem toNat_of_u64Add {a b c : UInt64} (h : u64Add env a b = some c)
    (hw : env.overflowChecks = true ∨ a.toNat + b.toNat < 2 ^ 64) :
    c.toNat = a.toNat + b.toNat := by
  unfold u64Add at h
  split at h
  · cases h
  · rename_i hover
    have hlt : a.toNat + b.toNat < 2 ^ 64 := by
      rcases hw with hc | hlt
      · exact Nat.not_le.1 fun hle => hover ⟨hc, hle⟩
      · exact hlt
    rw [← Option.some_inj.1 h, UInt64.toNat_add, Nat.mod_eq_of_lt hlt]

/-- An addition without overflow returns. -/
theorem exists_u64Add (env : Env) {a b : UInt64} (h : a.toNat + b.toNat < 2 ^ 64) :
    ∃ c, u64Add env a b = some c ∧ c.toNat = a.toNat + b.toNat := by
  have hadd : u64Add env a b = some (a + b) := if_neg fun hover => absurd hover.2 (by omega)
  exact ⟨a + b, hadd, toNat_of_u64Add hadd (.inr h)⟩

/-- A time that is converted is the same number. -/
theorem toInt_of_i64TryFrom {a : UInt64} {b : Int64} (h : i64TryFrom a = some b) :
    b.toInt = a.toNat ∧ a.toNat < 2 ^ 63 := by
  unfold i64TryFrom at h
  split at h
  · rename_i hlt
    rw [← Option.some_inj.1 h]
    exact ⟨BitVec.toInt_eq_toNat_of_lt (by simpa using by omega), hlt⟩
  · cases h

/-- The threshold, where the sums are in range. -/
theorem exists_renewalThreshold (env : Env) {margin now : UInt64}
    (h : now.toNat + margin.toNat + 1 < 2 ^ 63) :
    ∃ threshold, renewalThreshold env margin now = some threshold ∧
      threshold.toInt = now.toNat + margin.toNat + 1 := by
  obtain ⟨a, ha, hsum⟩ := exists_u64Add env (show now.toNat + margin.toNat < 2 ^ 64 by omega)
  obtain ⟨b, hb, hsum'⟩ := exists_u64Add env (show a.toNat + (1 : UInt64).toNat < 2 ^ 64 by
    rw [hsum]; simp; omega)
  have hnat : b.toNat = now.toNat + margin.toNat + 1 := by rw [hsum', hsum]; simp
  have hconv : i64TryFrom b = some b.toInt64 := if_pos (by omega)
  refine ⟨b.toInt64, ?_, ?_⟩
  · unfold renewalThreshold
    rw [ha, Option.bind_some, hb, Option.bind_some, hconv]
  · rw [(toInt_of_i64TryFrom hconv).1, hnat]
    simp

/-- A threshold that was computed without wrapping. -/
theorem toInt_of_renewalThreshold {margin now : UInt64} {threshold : Int64}
    (h : renewalThreshold env margin now = some threshold)
    (hw : env.overflowChecks = true ∨ now.toNat + margin.toNat + 1 < 2 ^ 64) :
    threshold.toInt = now.toNat + margin.toNat + 1 ∧ now.toNat + margin.toNat + 1 < 2 ^ 63 := by
  obtain ⟨b, hb, hconv⟩ := Option.bind_eq_some_iff.1 h
  obtain ⟨a, ha, hb⟩ := Option.bind_eq_some_iff.1 hb
  have hsum := toNat_of_u64Add ha (hw.imp_right fun h => by omega)
  have hsum' := toNat_of_u64Add hb (hw.imp_right fun h => by rw [hsum]; simp; omega)
  obtain ⟨hint, hlt⟩ := toInt_of_i64TryFrom hconv
  have hone : (1 : UInt64).toNat = 1 := rfl
  omega

/-- The expiry of a subscription, in seconds. -/
theorem toInt_expiryOf (now leaseSeconds : UInt64) :
    (expiryOf now leaseSeconds).toInt =
      (min (now.toNat + leaseSeconds.toNat) (2 ^ 63 - 1) : ℕ) := by
  unfold expiryOf
  cases hconv : i64TryFrom (saturatingAdd now leaseSeconds) with
  | some e =>
    obtain ⟨hint, hlt⟩ := toInt_of_i64TryFrom hconv
    rw [Option.getD_some, hint]
    rw [saturatingAdd] at hlt ⊢
    split at hlt
    · rename_i hsum
      rw [if_pos hsum, UInt64.toNat_add, Nat.mod_eq_of_lt hsum] at *
      omega
    · simp at hlt
  | none =>
    have hge : ¬ (saturatingAdd now leaseSeconds).toNat < 2 ^ 63 := fun hlt => by
      unfold i64TryFrom at hconv
      rw [if_pos hlt] at hconv
      cases hconv
    have hsum : 2 ^ 63 ≤ now.toNat + leaseSeconds.toNat := by
      unfold saturatingAdd at hge
      split at hge
      · rename_i hlt
        rw [UInt64.toNat_add, Nat.mod_eq_of_lt hlt] at hge
        omega
      · omega
    rw [Option.getD_none, Nat.min_eq_right (by omega)]
    decide

/-- The expiry saturates at the greatest `i64`. -/
theorem toNat_expiryOf (now leaseSeconds : UInt64) :
    (expiryOf now leaseSeconds).toNatClampNeg =
      min (now.toNat + leaseSeconds.toNat) (2 ^ 63 - 1) := by
  rw [Int64.toNatClampNeg, toInt_expiryOf, Int.toNat_natCast]

theorem toNat_toUInt64_expiryOf (now leaseSeconds : UInt64) :
    (expiryOf now leaseSeconds).toUInt64.toNat =
      min (now.toNat + leaseSeconds.toNat) (2 ^ 63 - 1) := by
  rw [← toNat_expiryOf, Int64.toNat_toUInt64_of_le]
  rw [Int64.le_iff_toInt_le, toInt_expiryOf]
  exact Int.natCast_nonneg _

/-- Plain subtraction gives the saturating time exactly where nothing saturates. -/
theorem exists_refreshTime_iff (env : Env) (service : Service cs) {e : UInt64} :
    (∃ tick, service.refreshTime env e = some tick ∧
      tick.toNat = e.toNat - service.renewalMargin.toNat) ↔ service.renewalMargin ≤ e := by
  rw [UInt64.le_iff_toNat_le]
  constructor
  · rintro ⟨tick, htick, hnat⟩
    unfold Service.refreshTime u64Sub at htick
    split at htick
    · cases htick
    · rw [← Option.some_inj.1 htick, UInt64.toNat_sub] at hnat
      have he := e.toNat_lt
      have hm := service.renewalMargin.toNat_lt
      omega
  · intro hle
    refine ⟨e - service.renewalMargin, if_neg fun h => ?_,
      UInt64.toNat_sub_of_le _ _ (UInt64.le_iff_toNat_le.2 hle)⟩
    exact absurd (UInt64.lt_iff_toNat_lt.1 h.2) (by omega)

/-! ## Agreement -/

/-- The refresh time of an expiry : the expiry, or zero, less the margin, or zero. -/
def refreshSeconds (margin : UInt64) (expiresAt : Int64) : ℕ :=
  (max expiresAt.toInt 0).toNat - margin.toNat

/-- The time is computed. -/
def Computes (tick : Option UInt64) (seconds : ℕ) : Prop :=
  ∃ t, tick = some t ∧ t.toNat = seconds

/-- The sites compute the saturating times. -/
structure Agree (env : Env) (service : Service cs) (now leaseSeconds : UInt64)
    (expiresAt : Int64) : Prop where
  /-- `build_service`, of a store with that next expiry. -/
  first : ∀ t : Subscriptions, t.getNextExpiry = some expiresAt →
    Computes (firstTick service.renewalMargin t) (refreshSeconds service.renewalMargin expiresAt)
  /-- `verify_intent`, of the lease that is granted now. -/
  expiry : (expiryOf now leaseSeconds).toInt =
    min (now.toNat + leaseSeconds.toNat : ℤ) Int64.maxValue.toInt
  hastened : Computes (service.refreshTime env (expiryOf now leaseSeconds).toUInt64)
    (refreshSeconds service.renewalMargin (expiryOf now leaseSeconds))
  /-- `Tick::tick`, of the expiry it has read. -/
  ticked : ∃ tick, service.tickAt env (some expiresAt) = some tick ∧
    Computes tick (refreshSeconds service.renewalMargin expiresAt)
  /-- `renew_subscriptions`. -/
  threshold : ∃ threshold, renewalThreshold env service.renewalMargin now = some threshold ∧
    threshold.toInt = min (now.toNat + service.renewalMargin.toNat + 1 : ℤ) Int64.maxValue.toInt

/-- The refresh time subtracts the margin, down to zero. -/
theorem refreshSeconds_eq (margin : UInt64) (expiresAt : Int64) :
    refreshSeconds margin expiresAt = expiresAt.toNatClampNeg - margin.toNat := by
  unfold refreshSeconds
  rw [Int64.toNatClampNeg]
  omega

/-- The tick after an expiry is its refresh time where that is in range. -/
theorem computes_tickAt_iff {e : Int64} :
    (∃ tick, service.tickAt env (some e) = some tick ∧
      Computes tick (refreshSeconds service.renewalMargin e)) ↔
      e < 0 ∨ (service.renewalMargin.toNat : ℤ) ≤ e.toInt := by
  have hzero : (0 : Int64).toInt = 0 := rfl
  rw [Service.tickAt, u64TryFrom]
  by_cases he : 0 ≤ e
  · have hnat : e.toUInt64.toNat = e.toNatClampNeg := Int64.toNat_toUInt64_of_le he
    have hcomp := exists_refreshTime_iff env service (e := e.toUInt64)
    rw [UInt64.le_iff_toNat_le, hnat, ← refreshSeconds_eq] at hcomp
    rw [Int64.le_iff_toInt_le, hzero] at he
    rw [Int64.lt_iff_toInt_lt, hzero]
    have hcast : service.renewalMargin.toNat ≤ e.toNatClampNeg ↔
        (service.renewalMargin.toNat : ℤ) ≤ e.toInt := by
      rw [Int64.toNatClampNeg]
      omega
    rw [or_iff_right (by omega), ← hcast, ← hcomp]
    simp [Computes, Int64.le_iff_toInt_le, he]
  · have hneg : e.toInt < 0 := by
      rw [Int64.le_iff_toInt_le, hzero] at he
      omega
    refine iff_of_true ⟨some 0, by rw [if_neg he], 0, rfl, ?_⟩ (.inl ?_)
    · unfold refreshSeconds
      simp
      omega
    · rw [Int64.lt_iff_toInt_lt, hzero]
      exact hneg

/-- The refresh time is computed exactly if the margin is at most the expiry. -/
theorem computes_refreshTime_iff {now leaseSeconds : UInt64} :
    Computes (service.refreshTime env (expiryOf now leaseSeconds).toUInt64)
      (refreshSeconds service.renewalMargin (expiryOf now leaseSeconds)) ↔
      service.renewalMargin.toNat ≤ min (now.toNat + leaseSeconds.toNat) (2 ^ 63 - 1) := by
  rw [refreshSeconds_eq, toNat_expiryOf, ← toNat_toUInt64_expiryOf, Computes,
    exists_refreshTime_iff, UInt64.le_iff_toNat_le]

/-- The sites agree, in builds that check for overflow and in those that do not, exactly if
the threshold is in the range of `i64` and the margin is no more than either expiry that it
is subtracted from. -/
theorem agree_iff (env : Env) (service : Service cs) (now leaseSeconds : UInt64)
    (expiresAt : Int64) :
    (∀ checks, Agree { env with overflowChecks := checks } service now leaseSeconds expiresAt) ↔
      now.toNat + service.renewalMargin.toNat + 1 < 2 ^ 63 ∧
        service.renewalMargin.toNat ≤ now.toNat + leaseSeconds.toNat ∧
        (expiresAt < 0 ∨ (service.renewalMargin.toNat : ℤ) ≤ expiresAt.toInt) := by
  have hmax : Int64.maxValue.toInt = 2 ^ 63 - 1 := rfl
  constructor
  · intro h
    obtain ⟨threshold, hthreshold, -⟩ := (h true).threshold
    have hrange := (toInt_of_renewalThreshold hthreshold (.inl rfl)).2
    have hhasten := computes_refreshTime_iff.1 (h true).hastened
    exact ⟨hrange, by omega, computes_tickAt_iff.1 (h true).ticked⟩
  · rintro ⟨hrange, hlease, htick⟩ checks
    refine ⟨fun t ht => ?_, ?_, computes_refreshTime_iff.2 (by omega),
      computes_tickAt_iff.2 htick, ?_⟩
    · refine ⟨refreshAt service.renewalMargin expiresAt, ?_, ?_⟩
      · unfold firstTick
        rw [ht]
        rfl
      · rw [toNat_refreshAt, refreshSeconds_eq]
    · rw [toInt_expiryOf, hmax]
      omega
    · obtain ⟨threshold, hthreshold, hint⟩ := exists_renewalThreshold
        { env with overflowChecks := checks } hrange
      refine ⟨threshold, hthreshold, ?_⟩
      rw [hint, hmax]
      omega

/-- `Duration::MAX` as margin, and a lease of a minute granted in November 2023 : no refresh
time and no threshold is computed. -/
theorem not_agree_maximal_margin :
    ¬∀ checks, Agree { exampleEnv with overflowChecks := checks }
      { exampleService with renewalMargin := 0xFFFFFFFFFFFFFFFF } 1700000000 60 1700000060 :=
  fun h => absurd ((agree_iff _ _ _ _ _).1 h).1 (by decide)

end Websub
