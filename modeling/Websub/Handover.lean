import Websub.Handshake

/-!
# A renewal and its hub

What becomes of a subscription that is renewed, where nothing fails. `renew_subscriptions` leaves it
inactive, so that content is still taken for it, and has another one requested. Once the hub has
asked about that one, it is active and the old one is gone, and the hub is asked to end the old one.
It is told that it may when it asks about that, and content for the old one is answered with 410
(`handover`).
-/

namespace Websub

open Tables Programs Http

variable {cs : Charset} {hmac : Hmac} {B : Type}

/-- Nothing fails, and the hubs are URIs. -/
structure Unfailing (env : Env) (s : Serving cs hmac B) : Prop where
  pool : s.poolError = none
  faults : ∀ n, s.world.faults n = none
  hubs : ∀ r ∈ s.world.store, env.isUri r.hub = true

/-- Where `P` holds and nothing fails, a hub that asks about the form gets its challenge, and then
`Q` holds. -/
def Form.Echoed (env : CallEnv) (service : Service cs) (form : Form cs)
    (P : UInt64 → UInt64 → Serving cs hmac B → Prop)
    (Q : Serving cs hmac B → Serving cs hmac B → Prop) : Prop :=
  ∀ challenge leaseSeconds, ∃ uri, form.verificationUri challenge leaseSeconds = some uri ∧
    ∀ (now : UInt64) (headers : Headers) (body : B) (s : Serving cs hmac B),
      Unfailing env.toEnv s → P now leaseSeconds s →
      (service.call env now ⟨uri, headers, body⟩ s).1 = .ok { body := challenge } ∧
        Q s (service.call env now ⟨uri, headers, body⟩ s).2

section Handover

variable {env : CallEnv} {service : Service cs}

/-- A hub asks about a form for an id that survives its encoding, and `verify_intent` echoes. -/
theorem Form.echoed (henv : env.verify = Verify.fromStr) (hcs : Encodes cs)
    (hs : service.Addressable) {id : UInt64} (hsurvives : CallbackId.Survives id) (form : Form cs)
    (hc : makeCallback env.engine service.callback id = some form.callback)
    {P : UInt64 → UInt64 → Serving cs hmac B → Prop}
    {Q : Serving cs hmac B → Serving cs hmac B → Prop}
    (h : ∀ challenge leaseSeconds now s, Unfailing env.toEnv s → P now leaseSeconds s →
      ∃ world, service.verifyIntent env.toEnv now id
          (some (form.verification challenge leaseSeconds)) s.world =
        (.ok (.challenge challenge), world) ∧ ∀ s', s'.world = world → Q s s') :
    form.Echoed env service P Q := by
  intro challenge leaseSeconds
  obtain ⟨uri, huri, hcall⟩ :=
    call_verificationUri hmac B henv hcs hs hc challenge leaseSeconds
  refine ⟨uri, huri, fun now headers body s hunfailing hP => ?_⟩
  obtain ⟨world, hverify, hQ⟩ := h challenge leaseSeconds now s hunfailing hP
  obtain ⟨hresult, hworld⟩ := verifyFor_spec env service now id
    (form.verification challenge leaseSeconds) hunfailing.pool
  rw [hcall, reducedId_eq_iff.2 hsurvives]
  rw [hverify] at hresult hworld
  exact ⟨hresult, hQ _ hworld⟩

/-- The hub of a row that is inactive asks about the request for it. -/
theorem SubscribesTo.echoed (henv : env.verify = Verify.fromStr) (hcs : Encodes cs)
    (hs : service.Addressable) {n : Row} {task : Task cs}
    (hsub : SubscribesTo env.toEnv service n task)
    (hsurvives : CallbackId.Survives n.id.toUInt64) (hnone : n.expiresAt = none)
    {P : UInt64 → UInt64 → Serving cs hmac B → Prop}
    (hP : ∀ {now leaseSeconds s}, P now leaseSeconds s → n ∈ s.world.store ∧
      service.renewalMargin.toNat ≤ min (now.toNat + leaseSeconds.toNat) (2 ^ 63 - 1))
    {Q : Serving cs hmac B → Serving cs hmac B → Prop}
    (h : ∀ {now leaseSeconds s s'}, P now leaseSeconds s → (∃ expiresAt tasks,
      Confirmed env.toEnv service now leaseSeconds n s.world s'.world expiresAt tasks) → Q s s') :
    task.form.Echoed env service P Q := by
  obtain ⟨c, hc, rfl⟩ := hsub
  refine Form.echoed henv hcs hs hsurvives (.subscribe c n.topic n.secret) hc
    fun challenge leaseSeconds now s hunfailing hbefore => ?_
  obtain ⟨hn, hmargin⟩ := hP hbefore
  have hle : service.renewalMargin ≤ (expiryOf now leaseSeconds).toUInt64 := by
    rwa [UInt64.le_iff_toNat_le, toNat_toUInt64_expiryOf]
  have hverified : Verified env.toEnv service now n.id.toUInt64
      (some (.subscribe n.topic challenge leaseSeconds)) s.world _ _ :=
    verified_subscribe hunfailing.faults hs.hasPath hunfailing.hubs n.topic challenge hle
  have hanswer := (hverified.echoes_iff challenge).2
    ⟨rfl, n, hn, (Int64.toInt64_toUInt64 _).symm, rfl, hnone⟩
  have hconfirmed := hverified.subscribe _ _ _ rfl n hn (Int64.toInt64_toUInt64 _).symm rfl hnone
  refine ⟨_, Prod.ext hanswer rfl, fun s' hworld => h hbefore ?_⟩
  rw [hworld]
  exact hconfirmed

/-- The hub of a row that is gone asks about the request to end it. -/
theorem UnsubscribesFrom.echoed (henv : env.verify = Verify.fromStr) (hcs : Encodes cs)
    (hs : service.Addressable) {hub topic : String} {id : UInt64} {task : Task cs}
    (hunsub : UnsubscribesFrom env.toEnv service hub topic id task)
    (hsurvives : CallbackId.Survives id) :
    task.form.Echoed env service
      (fun _ _ (s : Serving cs hmac B) => ∀ r ∈ s.world.store, r.id ≠ id.toInt64)
      fun s s' => Untouched s.world s'.world := by
  obtain ⟨c, hc, rfl⟩ := hunsub
  refine Form.echoed henv hcs hs hsurvives (.unsubscribe c topic) hc
    fun challenge leaseSeconds now s hunfailing hgone => ?_
  have hverified : Verified env.toEnv service now id (some (.unsubscribe topic challenge)) s.world
      (service.verifyIntent env.toEnv now id (some (.unsubscribe topic challenge)) s.world).1
      (service.verifyIntent env.toEnv now id (some (.unsubscribe topic challenge)) s.world).2 :=
    verified_unsubscribe hunfailing.faults topic challenge
  have hanswer := (hverified.echoes_iff challenge).2
    ⟨rfl, fun r hr hrow => hgone r hr hrow.1⟩
  refine ⟨_, Prod.ext hanswer rfl, fun s' hworld => ?_⟩
  exact hworld ▸ hverified.unsubscribe _ _ rfl

/-- Content for a row that is gone. -/
theorem call_of_gone (hs : service.Addressable) {id : UInt64} {callback : Uri cs}
    (hc : makeCallback env.engine service.callback id = some callback)
    (hsurvives : CallbackId.Survives id) {s : Serving cs hmac B}
    (hunfailing : Unfailing env.toEnv s) (hgone : ∀ r ∈ s.world.store, r.id ≠ id.toInt64)
    {headers : Headers} {sig : Signature} (hsig : Parsed env.features headers sig) (body : B)
    (now : UInt64) :
    (service.call env now ⟨callback.originForm, headers, body⟩ s).1 =
      .ok (emptyResponse .gone) := by
  obtain ⟨sig', hselect, -⟩ := exists_selectSignature hsig
  rw [call_of_names (names_originForm hs hc hsurvives headers body) hunfailing.pool
    hunfailing.faults]
  simp only [hselect, getTopic_eq_none_iff.2 hgone]

/-- The row that is added to renew one that expires, with its request. -/
theorem Renewed.exists_new {env : Env} {threshold : Int64} {rng : List UInt64}
    {t t' : Subscriptions} {tasks : List (Task cs)}
    (h : Renewed env service threshold rng t t' tasks) {r : Row} (hr : r ∈ t)
    (he : r.expiresBefore threshold = true) :
    ∃ n ∈ t', n.hub = r.hub ∧ n.topic = r.topic ∧ n.expiresAt = none ∧ n.id ≠ r.id ∧
      n.id.toUInt64 ∈ rng ∧ ∃ task ∈ tasks, SubscribesTo env service n task := by
  obtain ⟨news, hrows, hrenew⟩ := h
  have hmem : (r.id.toUInt64, r.hub, r.topic) ∈ t.getSubscriptionsExpireBefore threshold :=
    List.mem_map.2 ⟨r, Table.mem_select.2 ⟨hr, he⟩, rfl⟩
  obtain ⟨n, hn, hhub, htopic, hnone⟩ := exists_right_of_forall₂ hrenew.rows hmem
  have hfree : n.id ∉ t.keys :=
    Table.not_mem_keys_of_append hrows (map_id_deactivate t threshold) hn
  have hne : n.id ≠ r.id := fun hid => hfree (hid ▸ Table.key_mem_keys hr)
  refine ⟨n, ?_, hhub, htopic, hnone, hne, hrenew.drawn n hn,
    exists_right_of_forall₂ hrenew.tasks hn⟩
  rw [Table.mem_def, hrows]
  exact List.mem_append_right _ hn

/-- The row `n` has been confirmed in the place of the row `r`. -/
structure Succeeded (env : CallEnv) (service : Service cs) (r n : Row) (s : Serving cs hmac B) :
    Prop where
  active : ∃ expiresAt, { n with expiresAt := some expiresAt } ∈ s.world.store
  only : ∀ q ∈ s.world.store, q.hub = r.hub → q.topic = r.topic → q.id = n.id
  gone : ∀ q ∈ s.world.store, q.id ≠ r.id
  /-- The hub is asked to end it. -/
  ended : ∃ task ∈ s.world.spawned,
    UnsubscribesFrom env.toEnv service r.hub r.topic r.id.toUInt64 task

/-- A row that is confirmed takes the place of one of its hub and topic. -/
theorem Confirmed.succeeded {now leaseSeconds : UInt64} {r r' n : Row} {s s' : Serving cs hmac B}
    {expiresAt : Int64} {tasks : List (Task cs)}
    (h : Confirmed env.toEnv service now leaseSeconds n s.world s'.world expiresAt tasks)
    (hr : r' ∈ s.world.store) (hid : r'.id = r.id) (hhub : r'.hub = r.hub)
    (htopic : r'.topic = r.topic) (hnhub : n.hub = r.hub) (hntopic : n.topic = r.topic)
    (hne : n.id ≠ r.id) : Succeeded env service r n s' := by
  refine ⟨⟨expiresAt, (h.rows _).2 (.inl rfl)⟩, fun q hq hqhub hqtopic => ?_, fun q hq hqid => ?_,
    ?_⟩
  · rcases (h.rows q).1 hq with rfl | ⟨-, -, hnot⟩
    · rfl
    · exact absurd ⟨hqhub.trans hnhub.symm, hqtopic.trans hntopic.symm⟩ hnot
  · rcases (h.rows q).1 hq with rfl | ⟨hq, -, hnot⟩
    · exact hne hqid
    · obtain rfl := Table.eq_of_key hq hr (hqid.trans hid.symm)
      exact hnot ⟨hhub.trans hnhub.symm, htopic.trans hntopic.symm⟩
  · have hmem : r' ∈ s.world.store.select fun q =>
        q.hub = n.hub && q.topic = n.topic && q.id ≠ n.id := by
      refine Table.mem_select.2 ⟨hr, ?_⟩
      simp [hhub, htopic, hid, hnhub, hntopic, hne.symm]
    obtain ⟨task, htask, hunsub⟩ := exists_right_of_forall₂ h.requests hmem
    rw [hnhub, hntopic, hid] at hunsub
    refine ⟨task, ?_, hunsub⟩
    rw [h.spawned]
    exact List.mem_append_right _ htask

/-- A row that `renew_subscriptions` renews is there, inactive, and a new row of its hub and topic
is requested. The hub that asks about the new row while both are there gets its challenge, and the
new row has taken the place of the old one. A hub that asks about the end of the old row, once that
is gone, gets its challenge, which changes nothing, and content for it is answered with 410. -/
structure HandedOver (hmac : Hmac) (B : Type) (env : CallEnv) (service : Service cs) (r : Row)
    (w' : World (Task cs)) : Prop where
  kept : { r with expiresAt := none } ∈ w'.store
  requested : ∃ n ∈ w'.store, n.hub = r.hub ∧ n.topic = r.topic ∧ n.expiresAt = none ∧
    ∃ task ∈ w'.spawned, SubscribesTo env.toEnv service n task ∧
      task.form.Echoed env service
        (fun now leaseSeconds (s : Serving cs hmac B) =>
          { r with expiresAt := none } ∈ s.world.store ∧ n ∈ s.world.store ∧
            service.renewalMargin.toNat ≤ min (now.toNat + leaseSeconds.toNat) (2 ^ 63 - 1))
        fun _ s' => Succeeded env service r n s'
  ended : ∀ task, UnsubscribesFrom env.toEnv service r.hub r.topic r.id.toUInt64 task →
    task.form.Echoed env service
      (fun _ _ (s : Serving cs hmac B) => ∀ q ∈ s.world.store, q.id ≠ r.id)
      fun s s' => Untouched s.world s'.world
  answered : ∀ callback,
    makeCallback env.engine service.callback r.id.toUInt64 = some callback →
      ∀ s : Serving cs hmac B, Unfailing env.toEnv s → (∀ q ∈ s.world.store, q.id ≠ r.id) →
        ∀ headers sig, Parsed env.features headers sig → ∀ body now,
          (service.call env now ⟨callback.originForm, headers, body⟩ s).1 =
            .ok (emptyResponse .gone)

/-- Every row that `renew_subscriptions` renews is handed over, if its id and those that are drawn
survive their encoding. -/
theorem handover (hmac : Hmac) (B : Type) (henv : env.verify = Verify.fromStr) (hcs : Encodes cs)
    (hs : service.Addressable) {now : UInt64} {w w' : World (Task cs)}
    (h : service.renewSubscriptions env.toEnv now w = (.ok (), w'))
    (hdrawn : ∀ id ∈ w.rng, CallbackId.Survives id) {threshold : Int64}
    (hthreshold : renewalThreshold env.toEnv service.renewalMargin now = some threshold) {r : Row}
    (hr : r ∈ w.store) (he : r.expiresBefore threshold = true)
    (hsurvives : CallbackId.Survives r.id.toUInt64) : HandedOver hmac B env service r w' := by
  have hrenew : service.renew env.toEnv threshold w = (.ok (), w') := by
    unfold Service.renewSubscriptions at h
    rwa [hthreshold] at h
  obtain ⟨tasks, hspawned, -, hrenewed⟩ := Service.renewed_of_ok hrenew
  have hkept : { r with expiresAt := none } ∈ w'.store := by
    have hmem := hrenewed.deactivate_mem hr
    unfold Row.deactivate at hmem
    rwa [if_pos he] at hmem
  obtain ⟨n, hn, hhub, htopic, hnone, hne, hrng, task, htask, hsub⟩ := hrenewed.exists_new hr he
  refine ⟨hkept, ⟨n, hn, hhub, htopic, hnone, task, ?_, hsub, ?_⟩, fun task hunsub => ?_, ?_⟩
  · rw [hspawned]
    exact List.mem_append_right _ htask
  · refine hsub.echoed henv hcs hs (hdrawn _ hrng) hnone (fun hbefore => hbefore.2) ?_
    rintro now leaseSeconds s s' hbefore ⟨expiresAt, tasks, hconfirmed⟩
    exact hconfirmed.succeeded hbefore.1 rfl rfl rfl hhub htopic hne
  · simpa only [Int64.toInt64_toUInt64] using hunsub.echoed henv hcs hs hsurvives
  · intro callback hc s hunfailing hgone headers sig hsig body now
    refine call_of_gone hs hc hsurvives hunfailing ?_ hsig body now
    rwa [Int64.toInt64_toUInt64]

end Handover

/-- The subscription 2 is renewed by 7. -/
theorem handover_example :
    let w : World (Task .http) := .start (exampleStore "other" (some 100)) (fun _ => none) [7]
      (fun _ => Vector.replicate 24 0) noTick
    HandedOver exampleHmac String hubCallEnv exampleService
      { exampleRow with id := 2, topic := "other" }
      (exampleService.renewSubscriptions hubCallEnv.toEnv 95 w).2 := by
  intro w
  have h : exampleService.renewSubscriptions hubCallEnv.toEnv 95 w = (.ok (), _) :=
    Prod.ext (by decide +kernel) rfl
  have hthreshold : renewalThreshold hubCallEnv.toEnv exampleService.renewalMargin 95 =
      some 106 := by decide
  have hr : { exampleRow with id := 2, topic := "other" } ∈ w.store :=
    List.mem_cons_of_mem _ List.mem_cons_self
  exact handover exampleHmac String rfl (by unfold Encodes; decide) addressable_exampleService h
    (List.forall_mem_singleton.2 (by decide)) hthreshold hr (by decide) (by decide)

end Websub
