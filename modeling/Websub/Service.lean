import Websub.Hub

/-!
# The subscriber service

`subscriber/service.rs`, with `Tick::tick` and the first tick of `Builder::build_service`.

`renew_subscriptions` subscribes anew to every subscription that is about to expire and
deactivates the old ones. `verify_intent` answers a hub : it reads whether the subscription
is there and inactive, hastens the next tick to the time the subscription will have to be
renewed, and in one transaction deletes the other subscriptions to the topic and activates
this one. Both spawn their requests within the transaction. `activate` is that
transaction.

Times are seconds, and arithmetic is that of the source : saturating, checked, or plain,
where plain arithmetic panics or wraps with the build.

`Renewed` and `Activated` say what a transaction that returns has done to the store and
which requests it has spawned (`renewed_of_ok`, `activated_of_ok`). A call that does not
return leaves the store as it was.
-/

namespace Websub

open Tables Programs Http

variable {cs : Charset}

/-! ## Arithmetic -/

/-- Plain `u64` addition, `none` where it panics. -/
def u64Add (env : Env) (a b : UInt64) : Option UInt64 :=
  if env.overflowChecks ∧ 2 ^ 64 ≤ a.toNat + b.toNat then none else some (a + b)

/-- Plain `u64` subtraction, `none` where it panics. -/
def u64Sub (env : Env) (a b : UInt64) : Option UInt64 :=
  if env.overflowChecks ∧ a < b then none else some (a - b)

/-- `u64::saturating_add`. -/
def saturatingAdd (a b : UInt64) : UInt64 :=
  if a.toNat + b.toNat < 2 ^ 64 then a + b else 0xFFFFFFFFFFFFFFFF

/-- `u64::saturating_sub`. -/
def saturatingSub (a b : UInt64) : UInt64 :=
  if b ≤ a then a - b else 0

/-- `i64::try_from`. -/
def i64TryFrom (a : UInt64) : Option Int64 :=
  if a.toNat < 2 ^ 63 then some a.toInt64 else none

/-- `u64::try_from`. -/
def u64TryFrom (a : Int64) : Option UInt64 :=
  if 0 ≤ a then some a.toUInt64 else none

/-! ## The code -/

/-- `subscriber::Service` : what its methods read of it. -/
structure Service (cs : Charset) where
  callback : Uri cs
  renewalMargin : UInt64

/-- A verification of intent, as parsed from the query of a request. -/
inductive Verify
  | subscribe (topic challenge : String) (leaseSeconds : UInt64)
  | unsubscribe (topic challenge : String)
deriving DecidableEq

/-- The answers of `verify_intent`. -/
inductive Answer
  /-- 200 with the challenge. -/
  | challenge (body : String)
  /-- 404. -/
  | notFound
deriving DecidableEq

/-- The time before which subscriptions are renewed. -/
def renewalThreshold (env : Env) (margin now : UInt64) : Option Int64 :=
  ((u64Add env now margin).bind fun a => u64Add env a 1).bind i64TryFrom

/-- The expiry of a subscription verified now. -/
def expiryOf (now leaseSeconds : UInt64) : Int64 :=
  (i64TryFrom (saturatingAdd now leaseSeconds)).getD Int64.maxValue

/-- `AtomicU64::fetch_min`, the new value. -/
def fetchMin (a b : UInt64) : UInt64 :=
  if b < a then b else a

/-- The `u64::MAX` that stands for no tick. -/
def noTick : UInt64 :=
  0xFFFFFFFFFFFFFFFF

/-- `Handle::hasten`, as far as the call goes on : the next tick is lowered. -/
def hasten (tick : UInt64) : Db (Task cs) Unit :=
  Prog.modify fun w => { w with nextTick := fetchMin w.nextTick tick }

/-- The first tick of `Builder::build_service`. -/
def firstTick (margin : UInt64) (t : Subscriptions) : Option UInt64 :=
  t.getNextExpiry.map fun e => saturatingSub ((u64TryFrom e).getD 0) margin

namespace Service

variable (env : Env) (service : Service cs)

/-- `Service::refresh_time`. -/
def refreshTime (expiresAt : UInt64) : Option UInt64 :=
  u64Sub env expiresAt service.renewalMargin

/-- `Service::subscribe`. -/
def subscribe (hub topic : String) : Db (Task cs) (Task cs) :=
  Hub.subscribe env service.callback hub topic

/-- `Service::unsubscribe`. -/
def unsubscribe (id : UInt64) (hub topic : String) : Db (Task cs) (Task cs) :=
  Hub.unsubscribe env service.callback id hub topic

/-- The loop of `renew_subscriptions`. -/
def renewEach (expiring : List (UInt64 × String × String)) : Db (Task cs) Unit :=
  Prog.each expiring fun p => do
    let task ← service.subscribe env p.2.1 p.2.2
    spawn task

/-- The transaction of `renew_subscriptions`. -/
def renew (threshold : Int64) : Db (Task cs) Unit :=
  transaction do
    let expiring ← getSubscriptionsExpireBefore threshold
    if expiring = [] then pure ()
    else do
      service.renewEach env expiring
      deactivateSubscriptionsExpireBefore threshold

/-- `Service::renew_subscriptions`. -/
def renewSubscriptions (now : UInt64) : Db (Task cs) Unit :=
  match renewalThreshold env service.renewalMargin now with
  | none => Prog.stop .panicked
  | some threshold => service.renew env threshold

/-- The loop of `verify_intent`. -/
def unsubscribeEach (old : List UInt64) (hub topic : String) : Db (Task cs) Unit :=
  Prog.each old fun id => do
    let task ← service.unsubscribe env id hub topic
    spawn task

/-- The transaction of `verify_intent`. -/
def activate (id : UInt64) (hub topic : String) (expiresAt : Int64) : Db (Task cs) Unit :=
  transaction do
    let old ← getOldSubscriptions id hub topic
    service.unsubscribeEach env old hub topic
    let _ ← activateSubscription id expiresAt
    pure ()

/-- `verify_intent` for an inactive subscription that was found. -/
def verifySubscription (now id : UInt64) (hub topic challenge : String)
    (leaseSeconds : UInt64) : Db (Task cs) Answer :=
  match service.refreshTime env (expiryOf now leaseSeconds).toUInt64 with
  | none => Prog.stop .panicked
  | some tick => do
    hasten tick
    service.activate env id hub topic (expiryOf now leaseSeconds)
    pure (.challenge challenge)

/-- `Service::verify_intent`, of the query as it was parsed. -/
def verifyIntent (now id : UInt64) : Option Verify → Db (Task cs) Answer
  | some (.subscribe topic challenge leaseSeconds) => do
    let found ← getHubOfInactiveSubscription id topic
    match found with
    | some hub => service.verifySubscription env now id hub topic challenge leaseSeconds
    | none => pure .notFound
  | some (.unsubscribe topic challenge) => do
    let found ← subscriptionExists id topic
    pure (if found then .notFound else .challenge challenge)
  | none => pure .notFound

/-- The next tick after an expiry that was read, `none` where computing it panics. -/
def tickAt : Option Int64 → Option (Option UInt64)
  | none => some none
  | some e =>
    match u64TryFrom e with
    | none => some (some 0)
    | some e => (service.refreshTime env e).map some

/-- `Tick::tick`. -/
def tick (now : UInt64) : Db (Task cs) (Option UInt64) := do
  service.renewSubscriptions env now
  let expiry ← Websub.getNextExpiry
  match service.tickAt env expiry with
  | none => Prog.stop .panicked
  | some next => pure next

end Service

/-! ## What every call keeps -/

namespace Service

variable (env : Env) (service : Service cs)

theorem keeps_renewEach (l : List (UInt64 × String × String)) :
    Keeps (service.renewEach env l) :=
  Keeps.each (fun _ => Keeps.bind (Hub.keeps_subscribe env _ _ _) keeps_spawn) l

theorem keeps_unsubscribeEach (l : List UInt64) (hub topic : String) :
    Keeps (service.unsubscribeEach env l hub topic) :=
  Keeps.each (fun _ => Keeps.bind (Hub.keeps_unsubscribe env _ _ _ _) keeps_spawn) l

/-- The closure of the transaction of `renew_subscriptions`. -/
theorem keeps_renew_body (threshold : Int64) :
    Keeps (getSubscriptionsExpireBefore threshold >>= fun expiring =>
      (if expiring = [] then pure ()
        else service.renewEach env expiring >>= fun _ =>
          deactivateSubscriptionsExpireBefore threshold : Db (Task cs) Unit)) := by
  refine Keeps.bind (keeps_query _) fun l => ?_
  split
  · exact Keeps.pure _
  · exact Keeps.bind (keeps_renewEach env service l) fun _ => keeps_statement _

theorem keeps_renew (threshold : Int64) : Keeps (service.renew env threshold) :=
  keeps_transaction (keeps_renew_body env service threshold)

/-- `renew_subscriptions` leaves no transaction open, and takes nothing back that was spawned. -/
theorem keeps_renewSubscriptions (now : UInt64) :
    Keeps (service.renewSubscriptions env now) := by
  unfold renewSubscriptions
  split
  · exact Keeps.stop _
  · exact keeps_renew env service _

/-- The closure of the transaction of `verify_intent`. -/
theorem keeps_activate_body (id : UInt64) (hub topic : String) (expiresAt : Int64) :
    Keeps (getOldSubscriptions id hub topic >>= fun old =>
      service.unsubscribeEach env old hub topic >>= fun _ =>
        activateSubscription id expiresAt >>= fun _ => (pure () : Db (Task cs) Unit)) :=
  Keeps.bind (keeps_query _) fun _ =>
    Keeps.bind (keeps_unsubscribeEach env service _ hub topic) fun _ =>
      Keeps.bind (keeps_statement _) fun _ => Keeps.pure _

theorem keeps_activate (id : UInt64) (hub topic : String) (expiresAt : Int64) :
    Keeps (service.activate env id hub topic expiresAt) :=
  keeps_transaction (keeps_activate_body env service id hub topic expiresAt)

theorem keeps_hasten (tick : UInt64) : Keeps (hasten tick : Db (Task cs) Unit) := fun _ =>
  ⟨rfl, rfl, List.prefix_rfl, [], rfl, by simp⟩

theorem keeps_verifySubscription (now id : UInt64) (hub topic challenge : String)
    (leaseSeconds : UInt64) :
    Keeps (service.verifySubscription env now id hub topic challenge leaseSeconds) := by
  unfold verifySubscription
  split
  · exact Keeps.stop _
  · exact Keeps.bind (keeps_hasten _) fun _ =>
      Keeps.bind (keeps_activate env service _ _ _ _) fun _ => Keeps.pure _

/-- `verify_intent` leaves no transaction open, and takes nothing back that was spawned. -/
theorem keeps_verifyIntent (now id : UInt64) :
    ∀ q, Keeps (service.verifyIntent env now id q)
  | none => Keeps.pure _
  | some (.unsubscribe _ _) => Keeps.bind (keeps_query _) fun _ => Keeps.pure _
  | some (.subscribe _ _ _) => by
    refine Keeps.bind (keeps_query _) fun found => ?_
    cases found with
    | none => exact Keeps.pure _
    | some hub => exact keeps_verifySubscription env service _ _ _ _ _ _

end Service

/-! ## What a renewal that returns has done -/

/-- `deactivate_subscriptions_expire_before` on a row. -/
def Row.deactivate (before : Int64) (r : Row) : Row :=
  if r.expiresBefore before then { r with expiresAt := none } else r

/-- The row `n` was added to renew `e`. -/
def RenewalOf (e : UInt64 × String × String) (n : Row) : Prop :=
  n.hub = e.2.1 ∧ n.topic = e.2.2 ∧ n.expiresAt = none

/-- The request `task` subscribes to the row `n`. -/
def SubscribesTo (env : Env) (service : Service cs) (n : Row) (task : Task cs) : Prop :=
  ∃ c, makeCallback env.engine service.callback n.id.toUInt64 = some c ∧
    task = ⟨n.id.toUInt64, n.hub, .subscribe c n.topic n.secret⟩

/-- The rows added to the store to renew `l`, with their requests. -/
structure Renewals (env : Env) (service : Service cs) (rng : List UInt64)
    (l : List (UInt64 × String × String)) (news : List Row) (tasks : List (Task cs)) : Prop where
  /-- Each subscription is renewed by one row. -/
  rows : List.Forall₂ RenewalOf l news
  /-- Each of these rows has one request. -/
  tasks : List.Forall₂ (SubscribesTo env service) news tasks
  drawn : ∀ n ∈ news, n.id.toUInt64 ∈ rng

/-- The store after renewing everything that expires before the threshold, with the
requests for it : the expiring rows are inactive, and each has one new row and one
request. -/
def Renewed (env : Env) (service : Service cs) (threshold : Int64) (rng : List UInt64)
    (t t' : Subscriptions) (tasks : List (Task cs)) : Prop :=
  ∃ news : List Row, t'.rows = t.rows.map (Row.deactivate threshold) ++ news ∧
    Renewals env service rng (t.getSubscriptionsExpireBefore threshold) news tasks

@[simp] theorem Row.deactivate_id (before : Int64) (r : Row) : (r.deactivate before).id = r.id := by
  unfold deactivate
  split <;> rfl

@[simp] theorem Row.deactivate_hub (before : Int64) (r : Row) :
    (r.deactivate before).hub = r.hub := by
  unfold deactivate
  split <;> rfl

@[simp] theorem Row.deactivate_topic (before : Int64) (r : Row) :
    (r.deactivate before).topic = r.topic := by
  unfold deactivate
  split <;> rfl

@[simp] theorem Row.deactivate_secret (before : Int64) (r : Row) :
    (r.deactivate before).secret = r.secret := by
  unfold deactivate
  split <;> rfl

/-- A row that is active after a deactivation has not changed. -/
theorem Row.deactivate_eq_self {before : Int64} {r : Row}
    (h : (r.deactivate before).expiresAt ≠ none) : r.deactivate before = r := by
  rw [deactivate] at h ⊢
  split at h
  · exact absurd rfl h
  · rename_i hb
    rw [if_neg hb]

/-- Each of the second list is related to one of the first. -/
theorem exists_left_of_forall₂ {α β : Type} {R : α → β → Prop} {l : List α} {l' : List β}
    (h : List.Forall₂ R l l') {b : β} (hb : b ∈ l') : ∃ a ∈ l, R a b := by
  induction h with
  | nil => cases hb
  | cons hab _ ih =>
    rcases List.mem_cons.1 hb with rfl | hb
    · exact ⟨_, List.mem_cons_self, hab⟩
    · obtain ⟨a, ha, hab⟩ := ih hb
      exact ⟨a, List.mem_cons_of_mem _ ha, hab⟩

theorem exists_right_of_forall₂ {α β : Type} {R : α → β → Prop} {l : List α} {l' : List β}
    (h : List.Forall₂ R l l') {a : α} (ha : a ∈ l) : ∃ b ∈ l', R a b :=
  exists_left_of_forall₂ h.flip ha

section Renewed

variable {env : Env} {service : Service cs} {threshold : Int64} {rng : List UInt64}
  {t t' : Subscriptions} {tasks : List (Task cs)}

/-- The rows keep their ids. -/
theorem map_id_deactivate (t : Subscriptions) (before : Int64) :
    (t.rows.map (Row.deactivate before)).map Row.id = t.keys := by
  rw [List.map_map]
  exact List.map_congr_left fun r _ => Row.deactivate_id before r

/-- The rows after a renewal are the rows before it, and inactive ones of ids that were drawn
and free. -/
theorem Renewed.mem (h : Renewed env service threshold rng t t' tasks) {r' : Row} (hr : r' ∈ t') :
    (∃ r ∈ t, r' = r.deactivate threshold) ∨
      r'.id.toUInt64 ∈ rng ∧ r'.id ∉ t.keys ∧ r'.expiresAt = none := by
  obtain ⟨news, hrows, hrenew⟩ := h
  rw [Table.mem_def, hrows, List.mem_append, List.mem_map] at hr
  rcases hr with ⟨r, hr, rfl⟩ | hr
  · exact .inl ⟨r, hr, rfl⟩
  · obtain ⟨p, -, hp⟩ := exists_left_of_forall₂ hrenew.rows hr
    have hfree := Table.not_mem_keys_of_append hrows (map_id_deactivate t threshold) hr
    exact .inr ⟨hrenew.drawn r' hr, hfree, hp.2.2⟩

/-- A row that is active after a renewal was so before it. -/
theorem Renewed.mem_of_active (h : Renewed env service threshold rng t t' tasks) {r : Row}
    (hr : r ∈ t') (hact : r.expiresAt ≠ none) : r ∈ t := by
  rcases h.mem hr with ⟨q, hq, rfl⟩ | ⟨-, -, hnone⟩
  · rw [Row.deactivate_eq_self hact]
    exact hq
  · exact absurd hnone hact

/-- No row is deleted by a renewal. -/
theorem Renewed.deactivate_mem (h : Renewed env service threshold rng t t' tasks) {r : Row}
    (hr : r ∈ t) : r.deactivate threshold ∈ t' := by
  obtain ⟨news, hrows, -⟩ := h
  rw [Table.mem_def, hrows]
  exact List.mem_append_left _ (List.mem_map_of_mem hr)

/-- A row that expires has a new row, and a request for that. -/
theorem Renewed.exists_renewal (h : Renewed env service threshold rng t t' tasks) {r : Row}
    (hr : r ∈ t) (he : r.expiresBefore threshold = true) :
    ∃ n ∈ t', n.hub = r.hub ∧ n.topic = r.topic ∧
      ∃ task ∈ tasks, SubscribesTo env service n task := by
  obtain ⟨news, hrows, hrenew⟩ := h
  have hmem : (r.id.toUInt64, r.hub, r.topic) ∈ t.getSubscriptionsExpireBefore threshold :=
    List.mem_map.2 ⟨r, Table.mem_select.2 ⟨hr, he⟩, rfl⟩
  obtain ⟨n, hn, hhub, htopic, -⟩ := exists_right_of_forall₂ hrenew.rows hmem
  refine ⟨n, ?_, hhub, htopic, exists_right_of_forall₂ hrenew.tasks hn⟩
  rw [Table.mem_def, hrows]
  exact List.mem_append_right _ hn

end Renewed

namespace Service

variable {env : Env} {service : Service cs}

/-- The loop of `renew_subscriptions` adds a row, and spawns a request, for each subscription. -/
theorem ok_of_renewEach : ∀ {l : List (UInt64 × String × String)} {w w' : World (Task cs)},
    service.renewEach env l w = (.ok (), w') →
      ∃ news tasks, w'.store.rows = w.store.rows ++ news ∧ w'.spawned = w.spawned ++ tasks ∧
        w'.nextTick = w.nextTick ∧ Renewals env service w.rng l news tasks
  | [], w, w', h => by
    obtain rfl := Prog.ok_of_each_nil h
    exact ⟨[], [], by simp, by simp, rfl, .nil, .nil, by simp⟩
  | p :: l, w, w', h => by
    obtain ⟨v, hv, h⟩ := Prog.ok_of_each_cons h
    obtain ⟨task, u, hu, hv⟩ := Prog.ok_of_bind hv
    obtain ⟨-, rfl⟩ := Prod.mk.inj hv
    obtain ⟨id, secret, c, hc, rfl, hcreated⟩ := Hub.created_of_subscribe hu
    obtain ⟨news, tasks, hrows, hsp, hnt, hrenew⟩ := ok_of_renewEach h
    have hrows : w'.store.rows = u.store.rows ++ news := hrows
    have hsp : w'.spawned = u.spawned ++ [⟨id, p.2.1, .subscribe c p.2.2 secret⟩] ++ tasks := hsp
    have hdrawn : ∀ n ∈ news, n.id.toUInt64 ∈ u.rng := hrenew.drawn
    have hnew : SubscribesTo env service ⟨id.toInt64, p.2.1, p.2.2, secret, none⟩
        ⟨id, p.2.1, .subscribe c p.2.2 secret⟩ := ⟨c, by simpa using hc, by simp⟩
    refine ⟨_, _, ?_, ?_, hnt.trans hcreated.nextTick, .cons ⟨rfl, rfl, rfl⟩ hrenew.rows,
      .cons hnew hrenew.tasks, fun n hn => ?_⟩
    · rw [hrows, hcreated.rows, List.append_assoc, List.singleton_append]
    · rw [hsp, hcreated.spawned, List.append_assoc, List.singleton_append]
    · rcases List.mem_cons.1 hn with rfl | hn
      · simpa using hcreated.drawn
      · exact hcreated.rng.subset (hdrawn n hn)

/-- Where nothing expires nothing is deactivated. -/
theorem map_deactivate_of_nil {t : Subscriptions} {threshold : Int64}
    (h : t.getSubscriptionsExpireBefore threshold = []) :
    t.rows.map (Row.deactivate threshold) = t.rows := by
  rw [Subscriptions.getSubscriptionsExpireBefore, List.map_eq_nil_iff, Table.select,
    List.filter_eq_nil_iff] at h
  conv_rhs => rw [← List.map_id t.rows]
  exact List.map_congr_left fun r hr => if_neg (h r hr)

/-- Rows added to renew others are not about to expire. -/
theorem map_deactivate_of_renewal {threshold : Int64} {l : List (UInt64 × String × String)}
    {news : List Row} (h : List.Forall₂ RenewalOf l news) :
    news.map (Row.deactivate threshold) = news := by
  induction h with
  | nil => rfl
  | @cons p n l news hn _ ih =>
    have : n.expiresBefore threshold = false := by rw [Row.expiresBefore, hn.2.2]
    rw [List.map_cons, ih, Row.deactivate, if_neg (by simp [this])]

/-- What `renew_subscriptions` has done when it returns. -/
theorem renewed_of_ok {threshold : Int64} {w w' : World (Task cs)}
    (h : service.renew env threshold w = (.ok (), w')) :
    ∃ tasks, w'.spawned = w.spawned ++ tasks ∧ w'.nextTick = w.nextTick ∧
      Renewed env service threshold w.rng w.store w'.store tasks := by
  obtain ⟨v, hv, rfl⟩ := ok_of_transaction h
  obtain ⟨expiring, u, hu, hv⟩ := Prog.ok_of_bind hv
  obtain ⟨hexp, hu⟩ := ok_of_statement hu
  have hexp : expiring = w.store.getSubscriptionsExpireBefore threshold := hexp
  have hstore : u.store = w.store := by rw [hu]; rfl
  have hspawned : u.spawned = w.spawned := by rw [hu]; rfl
  have hnext : u.nextTick = w.nextTick := by rw [hu]; rfl
  have hrng : u.rng = w.rng := by rw [hu]; rfl
  split at hv
  · rename_i he
    obtain ⟨-, rfl⟩ := Prod.mk.inj hv
    refine ⟨[], ?_, hnext, [], ?_, ?_, .nil, by simp⟩
    · rw [List.append_nil]
      exact hspawned
    · rw [List.append_nil, map_deactivate_of_nil (hexp ▸ he)]
      exact congrArg Table.rows hstore
    · rw [← hexp, he]
      exact .nil
  · obtain ⟨⟨⟩, x, hx, hv⟩ := Prog.ok_of_bind hv
    obtain ⟨news, tasks, hrows, hsp, hnt, hrenew⟩ := ok_of_renewEach hx
    obtain ⟨-, rfl⟩ := ok_of_statement hv
    rw [hstore] at hrows
    refine ⟨tasks, ?_, hnt.trans hnext, news, ?_, hexp ▸ hrng ▸ hrenew⟩
    · rw [← hspawned]
      exact hsp
    · have hd : (x.store.deactivateSubscriptionsExpireBefore threshold).rows =
          x.store.rows.map (Row.deactivate threshold) := rfl
      rw [hrows, List.map_append, map_deactivate_of_renewal hrenew.rows] at hd
      exact hd

end Service

/-! ## What an activation that returns has done -/

/-- `activate_subscription` on a row. -/
def Row.activate (id : UInt64) (expiresAt : Int64) (r : Row) : Row :=
  if r.id = id.toInt64 then { r with expiresAt := some expiresAt } else r

/-- The row is an old subscription when `id` is verified. -/
def Row.isOld (id : UInt64) (hub topic : String) (r : Row) : Bool :=
  r.hub = hub && r.topic = topic && r.id ≠ id.toInt64

/-- The request `task` ends the subscription `id`. -/
def UnsubscribesFrom (env : Env) (service : Service cs) (hub topic : String) (id : UInt64)
    (task : Task cs) : Prop :=
  ∃ c, makeCallback env.engine service.callback id = some c ∧
    task = ⟨id, hub, .unsubscribe c topic⟩

/-- The store after activating a subscription, with the requests for it : the other rows
of its hub and topic are gone, and each has one request. -/
def Activated (env : Env) (service : Service cs) (id : UInt64) (hub topic : String)
    (expiresAt : Int64) (t t' : Subscriptions) (tasks : List (Task cs)) : Prop :=
  t'.rows = (t.rows.filter fun r => !r.isOld id hub topic).map (Row.activate id expiresAt) ∧
    List.Forall₂ (UnsubscribesFrom env service hub topic) (t.getOldSubscriptions id hub topic)
      tasks

theorem Row.activate_of_eq {id : UInt64} {expiresAt : Int64} {r : Row} (h : r.id = id.toInt64) :
    r.activate id expiresAt = { r with expiresAt := some expiresAt } :=
  if_pos h

theorem Row.activate_of_ne {id : UInt64} {expiresAt : Int64} {r : Row} (h : r.id ≠ id.toInt64) :
    r.activate id expiresAt = r :=
  if_neg h

@[simp] theorem Row.activate_id (id : UInt64) (expiresAt : Int64) (r : Row) :
    (r.activate id expiresAt).id = r.id := by
  unfold activate
  split <;> rfl

@[simp] theorem Row.activate_hub (id : UInt64) (expiresAt : Int64) (r : Row) :
    (r.activate id expiresAt).hub = r.hub := by
  unfold activate
  split <;> rfl

@[simp] theorem Row.activate_topic (id : UInt64) (expiresAt : Int64) (r : Row) :
    (r.activate id expiresAt).topic = r.topic := by
  unfold activate
  split <;> rfl

@[simp] theorem Row.activate_secret (id : UInt64) (expiresAt : Int64) (r : Row) :
    (r.activate id expiresAt).secret = r.secret := by
  unfold activate
  split <;> rfl

/-- The rows after an activation. -/
theorem Activated.mem_iff {env : Env} {service : Service cs} {id : UInt64} {hub topic : String}
    {expiresAt : Int64} {t t' : Subscriptions} {tasks : List (Task cs)}
    (h : Activated env service id hub topic expiresAt t t' tasks) {r' : Row} :
    r' ∈ t' ↔ ∃ r ∈ t, r.isOld id hub topic = false ∧ r' = r.activate id expiresAt := by
  rw [Table.mem_def, h.1, List.mem_map]
  simp only [List.mem_filter, Bool.not_eq_true', Table.mem_def]
  exact ⟨fun ⟨r, ⟨hr, ho⟩, h⟩ => ⟨r, hr, ho, h.symm⟩, fun ⟨r, hr, ho, h⟩ => ⟨r, ⟨hr, ho⟩, h.symm⟩⟩

namespace Service

variable {env : Env} {service : Service cs}

/-- The loop of `verify_intent` deletes each row, and spawns a request for it. -/
theorem ok_of_unsubscribeEach {hub topic : String} :
    ∀ {l : List UInt64} {w w' : World (Task cs)},
      service.unsubscribeEach env l hub topic w = (.ok (), w') →
        ∃ tasks, w'.store.rows = w.store.rows.filter (fun r => r.id.toUInt64 ∉ l) ∧
          w'.spawned = w.spawned ++ tasks ∧ w'.nextTick = w.nextTick ∧
          List.Forall₂ (UnsubscribesFrom env service hub topic) l tasks
  | [], w, w', h => by
    obtain rfl := Prog.ok_of_each_nil h
    exact ⟨[], by simp, by simp, rfl, .nil⟩
  | id :: l, w, w', h => by
    obtain ⟨v, hv, h⟩ := Prog.ok_of_each_cons h
    obtain ⟨task, u, hu, hv⟩ := Prog.ok_of_bind hv
    obtain ⟨-, rfl⟩ := Prod.mk.inj hv
    obtain ⟨c, hc, rfl, hstore, hsp, hnt⟩ := Hub.ok_of_unsubscribe hu
    obtain ⟨tasks, hrows', hsp', hnt', ht⟩ := ok_of_unsubscribeEach h
    have hrows' : w'.store.rows = u.store.rows.filter (fun r => r.id.toUInt64 ∉ l) := hrows'
    have hsp' : w'.spawned = u.spawned ++ [⟨id, hub, .unsubscribe c topic⟩] ++ tasks := hsp'
    have hrows : u.store.rows = w.store.rows.filter (fun r => !decide (r.id = id.toInt64)) := by
      rw [hstore]
      rfl
    refine ⟨_, ?_, ?_, hnt'.trans hnt, .cons ⟨c, hc, rfl⟩ ht⟩
    · rw [hrows', hrows, List.filter_filter]
      refine List.filter_congr fun r _ => ?_
      have : r.id = id.toInt64 ↔ r.id.toUInt64 = id :=
        ⟨fun h => by rw [h, UInt64.toUInt64_toInt64], fun h => by rw [← h, Int64.toInt64_toUInt64]⟩
      simp [this, Bool.and_comm]
    · rw [hsp', hsp, List.append_assoc, List.singleton_append]

/-- The rows an activation deletes are those it has listed. -/
theorem mem_getOldSubscriptions_iff {t : Subscriptions} {id : UInt64} {hub topic : String}
    {r : Row} (hr : r ∈ t) :
    r.id.toUInt64 ∈ t.getOldSubscriptions id hub topic ↔ r.isOld id hub topic = true := by
  unfold Subscriptions.getOldSubscriptions
  rw [List.mem_map]
  constructor
  · rintro ⟨s, hs, hid⟩
    obtain ⟨hs, hold⟩ := Table.mem_select.1 hs
    obtain rfl := Table.eq_of_key hs hr (by simpa using congrArg UInt64.toInt64 hid)
    exact hold
  · exact fun h => ⟨r, Table.mem_select.2 ⟨hr, h⟩, rfl⟩

/-- What the transaction of `verify_intent` has done when it returns. -/
theorem activated_of_ok {id : UInt64} {hub topic : String} {expiresAt : Int64}
    {w w' : World (Task cs)} (h : service.activate env id hub topic expiresAt w = (.ok (), w')) :
    ∃ tasks, w'.spawned = w.spawned ++ tasks ∧ w'.nextTick = w.nextTick ∧
      Activated env service id hub topic expiresAt w.store w'.store tasks := by
  obtain ⟨v, hv, rfl⟩ := ok_of_transaction h
  obtain ⟨old, u, hu, hv⟩ := Prog.ok_of_bind hv
  obtain ⟨hold, hu⟩ := ok_of_statement hu
  have hold : old = w.store.getOldSubscriptions id hub topic := hold
  have hstore : u.store = w.store := by rw [hu]; rfl
  have hspawned : u.spawned = w.spawned := by rw [hu]; rfl
  have hnext : u.nextTick = w.nextTick := by rw [hu]; rfl
  obtain ⟨⟨⟩, x, hx, hv⟩ := Prog.ok_of_bind hv
  obtain ⟨tasks, hrows, hsp, hnt, ht⟩ := ok_of_unsubscribeEach hx
  obtain ⟨b, y, hy, hv⟩ := Prog.ok_of_bind hv
  obtain ⟨-, rfl⟩ := ok_of_statement hy
  obtain ⟨-, rfl⟩ := Prod.mk.inj hv
  refine ⟨tasks, ?_, hnt.trans hnext, ?_, hold ▸ ht⟩
  · rw [← hspawned]
    exact hsp
  · have hact : (x.store.activateSubscription id expiresAt).2.rows =
        x.store.rows.map (Row.activate id expiresAt) := by
      simp [Subscriptions.activateSubscription, Table.update, Row.activate]
    have hfil : x.store.rows = w.store.rows.filter fun r => !r.isOld id hub topic := by
      rw [hrows, hstore, hold]
      refine List.filter_congr fun r hr => ?_
      simp [mem_getOldSubscriptions_iff hr]
    rw [hfil] at hact
    exact hact

/-- `renew_subscriptions` that does not return leaves the store as it was. -/
theorem store_of_renew_error {threshold : Int64} {w w' : World (Task cs)} {e : Stop}
    (h : service.renew env threshold w = (.error e, w')) : w'.store = w.store :=
  store_of_transaction_error (keeps_renew_body env service threshold) h

/-- `renew_subscriptions` that does not return leaves the store as it was. -/
theorem store_of_renewSubscriptions_error {now : UInt64} {w w' : World (Task cs)} {e : Stop}
    (h : service.renewSubscriptions env now w = (.error e, w')) : w'.store = w.store := by
  unfold renewSubscriptions at h
  cases ht : renewalThreshold env service.renewalMargin now with
  | none =>
    rw [ht] at h
    exact (congrArg (fun p => World.store p.2) h).symm
  | some threshold =>
    rw [ht] at h
    exact store_of_renew_error h

/-- The transaction of `verify_intent` that does not return leaves the store as it was. -/
theorem store_of_activate_error {id : UInt64} {hub topic : String} {expiresAt : Int64}
    {w w' : World (Task cs)} {e : Stop}
    (h : service.activate env id hub topic expiresAt w = (.error e, w')) : w'.store = w.store :=
  store_of_transaction_error (keeps_activate_body env service id hub topic expiresAt) h

theorem store_of_verifySubscription_error {now id : UInt64} {hub topic challenge : String}
    {leaseSeconds : UInt64} {w w' : World (Task cs)} {e : Stop}
    (h : service.verifySubscription env now id hub topic challenge leaseSeconds w =
      (.error e, w')) : w'.store = w.store := by
  unfold verifySubscription at h
  cases ht : service.refreshTime env (expiryOf now leaseSeconds).toUInt64 with
  | none =>
    rw [ht] at h
    exact (congrArg (fun p => World.store p.2) h).symm
  | some tick =>
    rw [ht] at h
    rcases Prog.error_of_bind h with h | ⟨_, u, hu, h⟩
    · cases (Prod.mk.inj h).1
    · obtain ⟨-, rfl⟩ := Prod.mk.inj hu
      rcases Prog.error_of_bind h with h | ⟨_, v, -, h⟩
      · exact (store_of_activate_error h).trans rfl
      · cases (Prod.mk.inj h).1

/-- `verify_intent` that does not return leaves the store as it was. -/
theorem store_of_verifyIntent_error {now id : UInt64} :
    ∀ {q : Option Verify} {w w' : World (Task cs)} {e : Stop},
      service.verifyIntent env now id q w = (.error e, w') → w'.store = w.store
  | none, w, w', e, h => by cases (Prod.mk.inj h).1
  | some (.unsubscribe topic _), w, w', e, h => by
    have hq := store_of_query (fun t => t.subscriptionExists id topic) w
    rcases Prog.error_of_bind h with h | ⟨found, u, -, h⟩
    · rw [← hq]
      exact congrArg (fun p => World.store p.2) h.symm
    · cases (Prod.mk.inj h).1
  | some (.subscribe topic _ _), w, w', e, h => by
    have hq := store_of_query (fun t => t.getHubOfInactiveSubscription id topic) w
    rcases Prog.error_of_bind h with h | ⟨found, u, hu, h⟩
    · rw [← hq]
      exact congrArg (fun p => World.store p.2) h.symm
    · have hstore : u.store = w.store := by
        rw [← hq]
        exact congrArg (fun p => World.store p.2) hu.symm
      cases found with
      | none => cases (Prod.mk.inj h).1
      | some hub => exact (store_of_verifySubscription_error h).trans hstore

end Service

/-! ## An example -/

/-- An active subscription of `topic` at `http://example.com/hub` that expires at 100. -/
def exampleRow : Row where
  id := 1
  hub := "http://example.com/hub"
  topic := "topic"
  secret := "secret"
  expiresAt := some 100

/-- Arithmetic is checked, and the example hub is the only URI. -/
def exampleEnv : Env where
  engine := Base64.urlSafeNoPad
  isUri s := s = "http://example.com/hub"
  overflowChecks := true

/-- A service at `http://example.com/` that renews ten seconds early. -/
def exampleService : Service .http where
  callback := exampleUri "/".toList (by decide)
  renewalMargin := 10

end Websub
