import Websub.Refresh

/-!
# What a tick does

`renew_subscriptions` selects the rows that expire, adds a row for each of them under a
random id, and updates by the same predicate a table that has grown meanwhile. The rows it
adds have no expiry, so the update meets the rows that were selected and no others :
`renewedExactly_of_ok` says what has become of every row, and which requests were spawned.

`Tick::tick` then reads the next expiry. Everything up to the threshold was renewed, so what
it reads is later than that, and the tick it returns is at least two seconds ahead
(`aims_of_ok`).
-/

namespace Websub

open Tables Programs Http

variable {cs : Charset}

/-! ## Secrets -/

/-- The secret that `gen_secret` makes of random bytes. -/
def Env.secretOf (env : Env) (bytes : Vector UInt8 24) : String :=
  String.ofList (env.engine.encode bytes.toList)

/-- The secrets that the next calls of `gen_secret` return. -/
def World.secrets (env : Env) (w : World (Task cs)) (n : ℕ) : List String :=
  (List.range n).map fun k => env.secretOf (w.fills (w.filled + k))

variable {env : Env} {service : Service cs}

/-- The secrets of a renewal are drawn one after another. -/
theorem World.secrets_succ (env : Env) {w u : World (Task cs)} (hfills : u.fills = w.fills)
    (hfilled : u.filled = w.filled + 1) (n : ℕ) :
    w.secrets env (n + 1) = env.secretOf (w.fills w.filled) :: u.secrets env n := by
  unfold secrets
  rw [List.range_succ_eq_map, List.map_cons, List.map_map, hfills, hfilled]
  refine congrArg (List.cons _) (List.map_congr_left fun k _ => ?_)
  rw [Function.comp, Nat.add_succ, Nat.succ_add]

/-- Drawing ids fills no secret. -/
theorem fills_of_insertLoop {τ : Type} (hub topic secret : String) :
    ∀ (rng : List UInt64) (w : World τ),
      (insertLoop hub topic secret rng w).2.fills = w.fills ∧
        (insertLoop hub topic secret rng w).2.filled = w.filled
  | [], w => ⟨rfl, rfl⟩
  | id :: rng, w => by
    unfold insertLoop
    split
    · exact ⟨rfl, rfl⟩
    · split
      · exact ⟨rfl, rfl⟩
      · exact fills_of_insertLoop hub topic secret rng _

theorem fills_of_createSubscription {τ : Type} {hub topic secret : String} {w w' : World τ}
    {id : UInt64} (h : createSubscription hub topic secret w = (.ok id, w')) :
    w'.fills = w.fills ∧ w'.filled = w.filled := by
  obtain ⟨v, hv, rfl⟩ := ok_of_transaction h
  have hfills := fills_of_insertLoop hub topic secret w.rng w.opened
  replace hv : insertLoop hub topic secret w.rng w.opened = (.ok id, v) := hv
  rw [hv] at hfills
  exact hfills

/-- `subscribe` takes its secret from the next random bytes. -/
theorem Hub.secret_of_subscribe {callback : Uri cs} {hub topic : String} {w w' : World (Task cs)}
    {task : Task cs} (h : Hub.subscribe env callback hub topic w = (.ok task, w')) :
    w'.fills = w.fills ∧ w'.filled = w.filled + 1 ∧
      ∃ c, task.form = .subscribe c topic (env.secretOf (w.fills w.filled)) := by
  obtain ⟨p, v, hv, h⟩ := Prog.ok_of_bind h
  obtain ⟨secret, u, hu, hv⟩ := Prog.ok_of_bind hv
  obtain ⟨id, x, hx, hv⟩ := Prog.ok_of_bind hv
  obtain ⟨hp, rfl⟩ := Prod.mk.inj hv
  obtain rfl := Except.ok.inj hp
  obtain ⟨hsecret, rfl⟩ := Prod.mk.inj hu
  have hfills := fills_of_createSubscription hx
  cases hc : makeCallback env.engine callback id with
  | none =>
    simp only [hc] at h
    cases (Prod.mk.inj h).1
  | some c =>
    simp only [hc] at h
    obtain ⟨rfl, rfl, -⟩ := Hub.ok_of_sendRequest h
    exact ⟨hfills.1, hfills.2, c, by rw [← Except.ok.inj hsecret]; rfl⟩

/-- The rows that the loop of `renew_subscriptions` adds have the next secrets, in order. -/
theorem Service.secrets_of_renewEach :
    ∀ {l : List (UInt64 × String × String)} {w w' : World (Task cs)} {news : List Row},
      service.renewEach env l w = (.ok (), w') → w'.store.rows = w.store.rows ++ news →
        news.map Row.secret = w.secrets env news.length
  | [], w, w', news, h, hnews => by
    obtain rfl := Prog.ok_of_each_nil h
    obtain rfl : news = [] := by simpa using hnews
    rfl
  | p :: l, w, w', news, h, hnews => by
    obtain ⟨v, hv, h⟩ := Prog.ok_of_each_cons h
    obtain ⟨task, u, hu, hv⟩ := Prog.ok_of_bind hv
    obtain ⟨-, rfl⟩ := Prod.mk.inj hv
    obtain ⟨hfills, hfilled, c, hform⟩ := Hub.secret_of_subscribe hu
    obtain ⟨id, secret, c', -, rfl, hcreated⟩ := Hub.created_of_subscribe hu
    obtain rfl : secret = env.secretOf (w.fills w.filled) := by
      injection hform
    obtain ⟨tail, -, hrows, -, -, -⟩ := ok_of_renewEach h
    have hsecrets := secrets_of_renewEach h hrows
    replace hrows : w'.store.rows = u.store.rows ++ tail := hrows
    rw [hrows, hcreated.rows, List.append_assoc, List.append_right_inj] at hnews
    rw [← hnews, List.singleton_append, List.map_cons, hsecrets, List.length_cons,
      World.secrets_succ env hfills hfilled]
    rfl

/-! ## A renewal, row by row -/

/-- The row `n` takes the place of `r`. -/
def Row.Renews (n r : Row) : Prop :=
  n.hub = r.hub ∧ n.topic = r.topic ∧ n.expiresAt = none

/-- What has become of the store, and what was spawned, when everything up to the threshold
was renewed : by the rows `news`, with the requests `tasks`. -/
structure RenewedExactly (env : Env) (service : Service cs) (threshold : Int64)
    (w w' : World (Task cs)) (news : List Row) (tasks : List (Task cs)) : Prop where
  /-- The rows up to the threshold have lost their expiry, the others are as they were. -/
  rows : w'.store.rows = w.store.rows.map (Row.deactivate threshold) ++ news
  /-- Each of the rows up to the threshold has one new row. -/
  renews : List.Forall₂ (fun r n => n.Renews r)
    (w.store.select fun r => r.expiresBefore threshold) news
  /-- The ids of the new rows were free, and no two are the same. -/
  fresh : ∀ n ∈ news, n.id ∉ w.store.keys
  distinct : (news.map Row.id).Nodup
  /-- Each new row has a secret of its own. -/
  secrets : news.map Row.secret = w.secrets env news.length
  /-- Each new row has one request. -/
  requests : List.Forall₂ (SubscribesTo env service) news tasks
  spawned : w'.spawned = w.spawned ++ tasks
  /-- The rows that lost their expiry were selected from the table with the new rows, and are
  those that the new rows renew. -/
  between : ∃ t : Subscriptions, t.rows = w.store.rows ++ news ∧
    w'.store = t.deactivateSubscriptionsExpireBefore threshold ∧
    (t.select fun r => r.expiresBefore threshold) =
      w.store.select fun r => r.expiresBefore threshold

/-- Rows without an expiry are not selected. -/
theorem filter_expiresBefore_eq_nil {threshold : Int64} {news : List Row}
    (h : ∀ n ∈ news, n.expiresAt = none) : (news.filter fun r => r.expiresBefore threshold) = [] :=
  List.filter_eq_nil_iff.2 fun n hn => by simp [Row.expiresBefore, h n hn]

/-- A table of rows and rows under ids that were free. -/
theorem exists_between {t t' : Subscriptions} {threshold : Int64} {news : List Row}
    (hrows : t'.rows = t.rows.map (Row.deactivate threshold) ++ news)
    (hnone : ∀ n ∈ news, n.expiresAt = none) :
    ∃ u : Subscriptions, u.rows = t.rows ++ news ∧
      t' = u.deactivateSubscriptionsExpireBefore threshold ∧
      (u.select fun r => r.expiresBefore threshold) =
        t.select fun r => r.expiresBefore threshold := by
  have hkeys : t'.rows.map Row.id = (t.rows ++ news).map Row.id := by
    rw [hrows, List.map_append, List.map_append, List.map_map]
    exact congrArg (· ++ _) (List.map_congr_left fun r _ => Row.deactivate_id threshold r)
  have hnews : news.map (Row.deactivate threshold) = news := by
    conv_rhs => rw [← List.map_id news]
    exact List.map_congr_left fun n hn => if_neg (by simp [Row.expiresBefore, hnone n hn])
  refine ⟨⟨t.rows ++ news, hkeys ▸ t'.nodup⟩, rfl, Table.ext ?_, ?_⟩
  · have hdeact : ((t.rows ++ news).map (Row.deactivate threshold)) = t'.rows := by
      rw [hrows, List.map_append, hnews]
    exact hdeact.symm
  · rw [Table.select, Table.select, List.filter_append, filter_expiresBefore_eq_nil hnone,
      List.append_nil]

/-- The loop of `renew_subscriptions` renews the rows that were selected. -/
theorem renews_of_renewalOf {rows news : List Row} (h : List.Forall₂ RenewalOf
    (rows.map fun r => (r.id.toUInt64, r.hub, r.topic)) news) :
    List.Forall₂ (fun r n => n.Renews r) rows news :=
  List.forall₂_map_left_iff.1 h

/-- The secrets of the rows that a renewal adds. -/
theorem Service.secrets_of_renew {threshold : Int64} {w w' : World (Task cs)} {news : List Row}
    (h : service.renew env threshold w = (.ok (), w'))
    (hrows : w'.store.rows = w.store.rows.map (Row.deactivate threshold) ++ news) :
    news.map Row.secret = w.secrets env news.length := by
  obtain ⟨v, hv, rfl⟩ := ok_of_transaction h
  obtain ⟨expiring, u, hu, hv⟩ := Prog.ok_of_bind hv
  obtain ⟨hexp, rfl⟩ := ok_of_statement hu
  replace hexp : expiring = w.store.getSubscriptionsExpireBefore threshold := hexp
  split at hv
  · rename_i he
    obtain ⟨-, rfl⟩ := Prod.mk.inj hv
    replace hrows : w.store.rows = w.store.rows.map (Row.deactivate threshold) ++ news := hrows
    rw [map_deactivate_of_nil (hexp ▸ he)] at hrows
    obtain rfl : news = [] := by simpa using hrows
    rfl
  · obtain ⟨⟨⟩, x, hx, hv⟩ := Prog.ok_of_bind hv
    obtain ⟨-, rfl⟩ := ok_of_statement hv
    obtain ⟨news', tasks, hadd, -, -, hrenew⟩ := ok_of_renewEach hx
    have hsecrets := secrets_of_renewEach hx hadd
    replace hadd : x.store.rows = w.store.rows ++ news' := hadd
    replace hrows : x.store.rows.map (Row.deactivate threshold) =
      w.store.rows.map (Row.deactivate threshold) ++ news := hrows
    rw [hadd, List.map_append, map_deactivate_of_renewal hrenew.rows,
      List.append_right_inj] at hrows
    rw [← hrows, hsecrets]
    rfl

/-- What the transaction of `renew_subscriptions` has done when it returns. -/
theorem Service.renewedExactly_of_renew {threshold : Int64} {w w' : World (Task cs)}
    (h : service.renew env threshold w = (.ok (), w')) :
    ∃ news tasks, RenewedExactly env service threshold w w' news tasks := by
  obtain ⟨tasks, hspawned, -, news, hrows, hrenew⟩ := renewed_of_ok h
  have hrenews := renews_of_renewalOf hrenew.rows
  have hnone : ∀ n ∈ news, n.expiresAt = none := fun n hn => by
    obtain ⟨r, -, hn⟩ := exists_left_of_forall₂ hrenews hn
    exact hn.2.2
  obtain ⟨t, ht, hbetween⟩ := exists_between hrows hnone
  have hnodup := t.nodup
  rw [ht, List.map_append, List.nodup_append] at hnodup
  exact ⟨news, tasks, hrows, hrenews, fun n hn => Table.not_mem_keys_of_append ht rfl hn,
    hnodup.2.1, secrets_of_renew h hrows, hrenew.tasks, hspawned, t, ht, hbetween⟩

/-- What `renew_subscriptions` has done when it returns, where the threshold does not wrap. -/
theorem renewedExactly_of_ok {now : UInt64} {w w' : World (Task cs)}
    (hw : env.overflowChecks = true ∨ now.toNat + service.renewalMargin.toNat + 1 < 2 ^ 64)
    (h : service.renewSubscriptions env now w = (.ok (), w')) :
    ∃ (threshold : Int64) (news : List Row) (tasks : List (Task cs)),
      threshold.toInt = now.toNat + service.renewalMargin.toNat + 1 ∧
        RenewedExactly env service threshold w w' news tasks := by
  unfold Service.renewSubscriptions at h
  cases ht : renewalThreshold env service.renewalMargin now with
  | none =>
    rw [ht] at h
    cases (Prod.mk.inj h).1
  | some threshold =>
    rw [ht] at h
    obtain ⟨news, tasks, hrenewed⟩ := Service.renewedExactly_of_renew h
    exact ⟨threshold, news, tasks, (toInt_of_renewalThreshold ht hw).1, hrenewed⟩

/-- Two active subscriptions, that expire at 100 and at 200. -/
def exampleActive : Subscriptions :=
  ⟨[exampleRow, { exampleRow with id := 3, topic := "other", expiresAt := some 200 }], by decide⟩

/-- A connection on them, with the next id and constant random bytes. -/
def exampleWorld : World (Task .http) :=
  .start exampleActive (fun _ => none) [2] (fun _ => Vector.replicate 24 0) 90

/-- A renewal at 95 of what expires up to 106. -/
theorem renewedExactly_of_ok_example :
    ∃ (threshold : Int64) (news : List Row) (tasks : List (Task .http)),
      threshold.toInt = (95 : UInt64).toNat + exampleService.renewalMargin.toNat + 1 ∧
        RenewedExactly exampleEnv exampleService threshold exampleWorld
          (exampleService.renewSubscriptions exampleEnv 95 exampleWorld).2 news tasks :=
  renewedExactly_of_ok (.inl rfl) (Prod.ext (by rfl) rfl)

/-! ## The next tick -/

/-- The row `r` was deactivated, and another row that is subscribed to renews it. -/
def RenewedBy (env : Env) (service : Service cs) (r : Row) (w w' : World (Task cs)) : Prop :=
  { r with expiresAt := none } ∈ w'.store ∧ ∃ n ∈ w'.store, n.id ∉ w.store.keys ∧ n.Renews r ∧
    ∃ tasks, w'.spawned = w.spawned ++ tasks ∧ ∃ task ∈ tasks, SubscribesTo env service n task

/-- The tick has renewed what was due, and aims at the next subscription that will be. -/
structure Aims (env : Env) (service : Service cs) (now : UInt64) (w : World (Task cs))
    (next : Option UInt64) (w' : World (Task cs)) : Prop where
  /-- No subscription is left that expires up to the threshold. -/
  later : ∀ r ∈ w'.store, ∀ e ∈ r.expiresAt,
    (now.toNat + service.renewalMargin.toNat + 1 : ℤ) < e.toInt
  none_iff : next = none ↔ ∀ r ∈ w'.store, r.expiresAt = none
  least : ∀ tick ∈ next, IsLeast {x : ℤ | ∃ r ∈ w'.store, ∃ e ∈ r.expiresAt,
    x = e.toInt - service.renewalMargin.toNat} tick.toNat
  ahead : ∀ tick ∈ next, now.toNat + 2 ≤ tick.toNat
  /-- The expiry that is read is not negative, and the margin can be subtracted from it. -/
  inRange : ∀ e ∈ w'.store.getNextExpiry, ∃ x, u64TryFrom e = some x ∧ service.renewalMargin ≤ x
  renewed_iff : ∀ r ∈ w.store, ∀ e ∈ r.expiresAt,
    RenewedBy env service r w w' ↔ e.toInt - service.renewalMargin.toNat - 1 ≤ now.toNat
  unchanged : ∀ r ∈ w.store, ∀ e ∈ r.expiresAt,
    now.toNat < e.toInt - service.renewalMargin.toNat - 1 → r ∈ w'.store
  /-- A tick at or after the refresh time of a row renews it. -/
  refreshed : ∀ r ∈ w.store, ∀ e ∈ r.expiresAt,
    refreshAt service.renewalMargin e ≤ now → RenewedBy env service r w w'

/-- There is no next expiry exactly if no row is active. -/
theorem getNextExpiry_eq_none_iff {t : Subscriptions} :
    t.getNextExpiry = none ↔ ∀ r ∈ t, r.expiresAt = none := by
  unfold Subscriptions.getNextExpiry
  rw [List.head?_eq_none_iff]
  constructor
  · intro h r hr
    by_contra hne
    obtain ⟨e, he⟩ := Option.ne_none_iff_exists'.1 hne
    have hmem : e ∈ t.rows.filterMap Row.expiresAt := List.mem_filterMap.2 ⟨r, hr, he⟩
    rw [← List.mem_insertionSort (· ≤ ·), h] at hmem
    cases hmem
  · intro h
    have hnil : t.rows.filterMap Row.expiresAt = [] := List.filterMap_eq_nil_iff.2 h
    rw [hnil]
    rfl

/-- The expiry that is read is one of the table. -/
theorem exists_of_getNextExpiry {t : Subscriptions} {m : Int64} (h : t.getNextExpiry = some m) :
    ∃ r ∈ t, r.expiresAt = some m := by
  have hmem := List.mem_of_head? h
  rw [List.mem_insertionSort] at hmem
  exact List.mem_filterMap.1 hmem

/-- A row expires before a time if its expiry is no later. -/
theorem Row.expiresBefore_iff {r : Row} {before e : Int64} (he : r.expiresAt = some e) :
    r.expiresBefore before = true ↔ e.toInt ≤ before.toInt := by
  unfold expiresBefore
  rw [he, decide_eq_true_iff, Int64.le_iff_toInt_le]

section RenewedExactly

variable {threshold : Int64} {w w' : World (Task cs)} {news : List Row} {tasks : List (Task cs)}

/-- A renewal is told by the store and by what was spawned. -/
theorem RenewedExactly.congr (h : RenewedExactly env service threshold w w' news tasks)
    {w'' : World (Task cs)} (hstore : w''.store = w'.store) (hspawned : w''.spawned = w'.spawned) :
    RenewedExactly env service threshold w w'' news tasks where
  rows := hstore ▸ h.rows
  renews := h.renews
  fresh := h.fresh
  distinct := h.distinct
  secrets := h.secrets
  requests := h.requests
  spawned := hspawned ▸ h.spawned
  between := hstore ▸ h.between

/-- The rows after a renewal are the ones before it, and the new ones. -/
theorem RenewedExactly.mem_iff (h : RenewedExactly env service threshold w w' news tasks)
    {r' : Row} :
    r' ∈ w'.store ↔ (∃ r ∈ w.store, r' = r.deactivate threshold) ∨ r' ∈ news := by
  rw [Table.mem_def, h.rows, List.mem_append, List.mem_map]
  simp only [Table.mem_def, eq_comm]

/-- A row that is active after a renewal was so before it, and expires later. -/
theorem RenewedExactly.lt_of_active (h : RenewedExactly env service threshold w w' news tasks)
    {r : Row} (hr : r ∈ w'.store) {e : Int64} (he : r.expiresAt = some e) :
    threshold.toInt < e.toInt := by
  rcases h.mem_iff.1 hr with ⟨q, -, rfl⟩ | hnew
  · have hq := Row.deactivate_eq_self (he ▸ Option.some_ne_none e)
    have hnot : q.expiresBefore threshold ≠ true := fun hexp => by
      unfold Row.deactivate at he
      rw [if_pos hexp] at he
      cases he
    rw [hq] at he
    rw [Ne, Row.expiresBefore_iff he] at hnot
    omega
  · obtain ⟨q, -, hn⟩ := exists_left_of_forall₂ h.renews hnew
    rw [hn.2.2] at he
    cases he

/-- The rows that are renewed are those up to the threshold. -/
theorem RenewedExactly.renewedBy_iff (h : RenewedExactly env service threshold w w' news tasks)
    {r : Row} (hr : r ∈ w.store) {e : Int64} (he : r.expiresAt = some e) :
    RenewedBy env service r w w' ↔ e.toInt ≤ threshold.toInt := by
  rw [← Row.expiresBefore_iff he]
  constructor
  · rintro ⟨hnull, -⟩
    by_contra hexp
    have hkeep : r.deactivate threshold = r := if_neg hexp
    have hmem : r ∈ w'.store := h.mem_iff.2 (.inl ⟨r, hr, hkeep.symm⟩)
    have heq : { r with expiresAt := none } = r := Table.eq_of_key hnull hmem rfl
    rw [← heq] at he
    cases he
  · intro hexp
    have hdeact : r.deactivate threshold = { r with expiresAt := none } := if_pos hexp
    have hsel : r ∈ w.store.select fun r => r.expiresBefore threshold :=
      Table.mem_select.2 ⟨hr, hexp⟩
    obtain ⟨n, hn, hrenews⟩ := exists_right_of_forall₂ h.renews hsel
    obtain ⟨task, htask, hsub⟩ := exists_right_of_forall₂ h.requests hn
    exact ⟨h.mem_iff.2 (.inl ⟨r, hr, hdeact.symm⟩), n, h.mem_iff.2 (.inr hn), h.fresh n hn, hrenews,
      tasks, h.spawned, task, htask, hsub⟩

end RenewedExactly

/-- The tick of an expiry that the margin can be subtracted from. -/
theorem tickAt_of_le {e : Int64} {next : Option UInt64}
    (h : service.tickAt env (some e) = some next)
    (hle : (service.renewalMargin.toNat : ℤ) ≤ e.toInt) :
    ∃ tick, next = some tick ∧ (tick.toNat : ℤ) = e.toInt - service.renewalMargin.toNat ∧
      ∃ x, u64TryFrom e = some x ∧ service.renewalMargin ≤ x := by
  have hpos : 0 ≤ e := by
    rw [Int64.le_iff_toInt_le]
    exact le_trans (Int.natCast_nonneg _) hle
  have hnat : (e.toUInt64.toNat : ℤ) = e.toInt := by
    rw [Int64.toNat_toUInt64_of_le hpos, Int64.toNatClampNeg]
    exact Int.toNat_of_nonneg (Int64.le_iff_toInt_le.1 hpos)
  have hconv : u64TryFrom e = some e.toUInt64 := if_pos hpos
  have hmargin : service.renewalMargin ≤ e.toUInt64 := by
    rw [UInt64.le_iff_toNat_le]
    omega
  have hnext := tickAt_eq h (.inr fun x hx => by
    obtain rfl := Option.some_inj.1 (hconv.symm.trans hx)
    exact hmargin)
  refine ⟨_, hnext, ?_, e.toUInt64, hconv, hmargin⟩
  rw [toNat_refreshAt, Int64.toNatClampNeg]
  omega

section NextTick

variable {t : Subscriptions} {next : Option UInt64}

/-- The tick of a table whose expiries are not before the margin. -/
theorem exists_tick (ht : service.tickAt env t.getNextExpiry = some next)
    (hle : ∀ r ∈ t, ∀ e ∈ r.expiresAt, (service.renewalMargin.toNat : ℤ) ≤ e.toInt) {m : Int64}
    (hm : t.getNextExpiry = some m) : ∃ tick, next = some tick ∧
      (tick.toNat : ℤ) = m.toInt - service.renewalMargin.toNat ∧
      ∃ x, u64TryFrom m = some x ∧ service.renewalMargin ≤ x := by
  obtain ⟨r, hr, he⟩ := exists_of_getNextExpiry hm
  rw [hm] at ht
  exact tickAt_of_le ht (hle r hr m he)

/-- A tick sets no time exactly if no row is active. -/
theorem tick_eq_none_iff (ht : service.tickAt env t.getNextExpiry = some next)
    (hle : ∀ r ∈ t, ∀ e ∈ r.expiresAt, (service.renewalMargin.toNat : ℤ) ≤ e.toInt) :
    next = none ↔ t.getNextExpiry = none := by
  cases hm : t.getNextExpiry with
  | none =>
    rw [hm] at ht
    exact iff_of_true (Option.some_inj.1 ht).symm rfl
  | some m =>
    obtain ⟨tick, rfl, -⟩ := exists_tick ht hle hm
    exact iff_of_false (Option.some_ne_none tick) (Option.some_ne_none m)

/-- The tick is at the least of the expiries, less the margin. -/
theorem isLeast_tick (ht : service.tickAt env t.getNextExpiry = some next)
    (hle : ∀ r ∈ t, ∀ e ∈ r.expiresAt, (service.renewalMargin.toNat : ℤ) ≤ e.toInt)
    {tick : UInt64} (htick : next = some tick) :
    IsLeast {x : ℤ | ∃ r ∈ t, ∃ e ∈ r.expiresAt, x = e.toInt - service.renewalMargin.toNat}
      tick.toNat := by
  subst htick
  obtain ⟨m, hm⟩ := Option.ne_none_iff_exists'.1 fun hnone =>
    Option.some_ne_none tick ((tick_eq_none_iff ht hle).2 hnone)
  obtain ⟨tick', htick', hnat, -⟩ := exists_tick ht hle hm
  obtain rfl := Option.some_inj.1 htick'
  obtain ⟨r, hr, he⟩ := exists_of_getNextExpiry hm
  refine ⟨⟨r, hr, m, he, hnat⟩, ?_⟩
  rintro _ ⟨q, hq, e, he', rfl⟩
  obtain ⟨m', hm', hmin⟩ := exists_getNextExpiry hq he'
  obtain rfl := Option.some_inj.1 (hm.symm.trans hm')
  rw [Int64.le_iff_toInt_le] at hmin
  omega

end NextTick

/-- A tick that returns has renewed, and has read the next expiry. -/
theorem Service.ok_of_tick {now : UInt64} {w w' : World (Task cs)} {next : Option UInt64}
    (h : service.tick env now w = (.ok next, w')) :
    ∃ v, service.renewSubscriptions env now w = (.ok (), v) ∧ w'.store = v.store ∧
      w'.spawned = v.spawned ∧ w'.nextTick = v.nextTick ∧
      service.tickAt env v.store.getNextExpiry = some next := by
  obtain ⟨⟨⟩, v, hv, h⟩ := Prog.ok_of_bind h
  obtain ⟨expiry, u, hu, h⟩ := Prog.ok_of_bind h
  obtain ⟨hexpiry, rfl⟩ := ok_of_statement hu
  replace hexpiry : expiry = v.store.getNextExpiry := hexpiry
  cases ht : service.tickAt env expiry with
  | none =>
    simp only [ht] at h
    cases (Prod.mk.inj h).1
  | some next' =>
    simp only [ht] at h
    obtain ⟨hnext, rfl⟩ := Prod.mk.inj h
    obtain rfl := Except.ok.inj hnext
    exact ⟨v, hv, rfl, rfl, rfl, hexpiry ▸ ht⟩

/-- What a tick that returns has renewed, and what is left. -/
theorem Service.renewedExactly_of_tick {now : UInt64} {w w' : World (Task cs)}
    {next : Option UInt64}
    (hw : env.overflowChecks = true ∨ now.toNat + service.renewalMargin.toNat + 1 < 2 ^ 64)
    (h : service.tick env now w = (.ok next, w')) :
    service.tickAt env w'.store.getNextExpiry = some next ∧
      ∃ (threshold : Int64) (news : List Row) (tasks : List (Task cs)),
        threshold.toInt = now.toNat + service.renewalMargin.toNat + 1 ∧
          RenewedExactly env service threshold w w' news tasks := by
  obtain ⟨v, hv, hstore, hspawned, -, ht⟩ := ok_of_tick h
  rw [← hstore] at ht
  unfold renewSubscriptions at hv
  cases hthreshold : renewalThreshold env service.renewalMargin now with
  | none =>
    rw [hthreshold] at hv
    cases (Prod.mk.inj hv).1
  | some threshold =>
    rw [hthreshold] at hv
    obtain ⟨news, tasks, hexact⟩ := renewedExactly_of_renew hv
    exact ⟨ht, threshold, news, tasks, (toInt_of_renewalThreshold hthreshold hw).1,
      hexact.congr hstore hspawned⟩

section OfTick

variable {now : UInt64} {w w' : World (Task cs)} {next : Option UInt64}

/-- The margin can be subtracted from what is active after a tick that returns. -/
theorem Service.margin_le_of_tick
    (hw : env.overflowChecks = true ∨ now.toNat + service.renewalMargin.toNat + 1 < 2 ^ 64)
    (h : service.tick env now w = (.ok next, w')) :
    ∀ r ∈ w'.store, ∀ e ∈ r.expiresAt, (service.renewalMargin.toNat : ℤ) ≤ e.toInt := by
  obtain ⟨-, threshold, news, tasks, hint, hexact⟩ := renewedExactly_of_tick hw h
  intro r hr e he
  have hlt := hexact.lt_of_active hr he
  omega

/-- A tick that returns is at least two seconds ahead. -/
theorem Service.ahead_of_tick
    (hw : env.overflowChecks = true ∨ now.toNat + service.renewalMargin.toNat + 1 < 2 ^ 64)
    (h : service.tick env now w = (.ok next, w')) {tick : UInt64} (htick : next = some tick) :
    now.toNat + 2 ≤ tick.toNat := by
  obtain ⟨ht, threshold, news, tasks, hint, hexact⟩ := renewedExactly_of_tick hw h
  obtain ⟨r, hr, e, he, hnat⟩ := (isLeast_tick ht (margin_le_of_tick hw h) htick).1
  have hlt := hexact.lt_of_active hr he
  omega

/-- The next expiry after a tick that returns does not wrap. -/
theorem Service.noWrap_of_tick
    (hw : env.overflowChecks = true ∨ now.toNat + service.renewalMargin.toNat + 1 < 2 ^ 64)
    (h : service.tick env now w = (.ok next, w')) :
    ∀ m ∈ w'.store.getNextExpiry, NoWrap env service.renewalMargin m := by
  obtain ⟨ht, -⟩ := renewedExactly_of_tick hw h
  intro m hm
  obtain ⟨-, -, -, x, hx, hmargin⟩ := exists_tick ht (margin_le_of_tick hw h) hm
  refine .inr fun e he => ?_
  obtain rfl := Option.some_inj.1 (hx.symm.trans he)
  exact hmargin

end OfTick

/-- A tick that returns, with a threshold that does not wrap, has renewed what was due and
aims at the next subscription that will be. -/
theorem aims_of_ok {now : UInt64} {w w' : World (Task cs)} {next : Option UInt64}
    (hw : env.overflowChecks = true ∨ now.toNat + service.renewalMargin.toNat + 1 < 2 ^ 64)
    (h : service.tick env now w = (.ok next, w')) : Aims env service now w next w' := by
  obtain ⟨ht, threshold, news, tasks, hint, hexact⟩ := Service.renewedExactly_of_tick hw h
  have hlater : ∀ r ∈ w'.store, ∀ e ∈ r.expiresAt,
      (now.toNat + service.renewalMargin.toNat + 1 : ℤ) < e.toInt := fun r hr e he =>
    hint ▸ hexact.lt_of_active hr he
  have hrenewed : ∀ r ∈ w.store, ∀ e ∈ r.expiresAt,
      (RenewedBy env service r w w' ↔ e.toInt ≤ now.toNat + service.renewalMargin.toNat + 1) :=
    fun r hr e he => hint ▸ hexact.renewedBy_iff hr he
  have hle : ∀ r ∈ w'.store, ∀ e ∈ r.expiresAt,
      (service.renewalMargin.toNat : ℤ) ≤ e.toInt := by
    intro r hr e he
    have hlt := hlater r hr e he
    omega
  refine ⟨hlater, ?_, fun tick htick => isLeast_tick ht hle htick, ?_, ?_, ?_, ?_, ?_⟩
  · rw [tick_eq_none_iff ht hle, getNextExpiry_eq_none_iff]
  · intro tick htick
    obtain ⟨r, hr, e, he, hnat⟩ := (isLeast_tick ht hle htick).1
    have hlt := hlater r hr e he
    omega
  · intro m hm
    obtain ⟨-, -, -, hx⟩ := exists_tick ht hle hm
    exact hx
  · intro r hr e he
    rw [hrenewed r hr e he]
    omega
  · intro r hr e he hnow
    refine hexact.mem_iff.2 (.inl ⟨r, hr, ?_⟩)
    have hexp : ¬ r.expiresBefore threshold = true := by
      rw [Row.expiresBefore_iff he]
      omega
    exact (if_neg hexp).symm
  · intro r hr e he hrefresh
    rw [UInt64.le_iff_toNat_le, toNat_refreshAt, Int64.toNatClampNeg] at hrefresh
    rw [hrenewed r hr e he]
    omega

/-- A tick at 95 that renews, and sets the next one for 190. -/
theorem aims_of_ok_example : Aims exampleEnv exampleService 95 exampleWorld (some 190)
    (exampleService.tick exampleEnv 95 exampleWorld).2 :=
  aims_of_ok (.inl rfl) (Prod.ext (by rfl) rfl)

end Websub
