import Websub.Commit
import Websub.Renewal
import Websub.Request

/-!
# What a step sends, and the rows it leaves

`hub::subscribe` gives a row its id, hub, topic and secret once, and sends the last three with the
callback of the id. No later step changes them, and only `verify_intent` makes a row active.

`System.sends_of_step` : a step that sends a form to subscribe has drawn its id, which no row had,
and has left the row as the form says, or none where its transaction has failed.
`Stored.active_or_answered` says where the active rows of a step come from.
-/

namespace Websub

open Machines Tables Programs Http

variable {cs : Charset}

/-! ## What a call spawns -/

section SpawnsOnly

variable {τ α β : Type} {P Q : World τ → τ → Prop}

/-- However the call ends, the futures it has spawned meet `P` of the state it started in. -/
def SpawnsOnly (P : World τ → τ → Prop) (x : Db τ α) : Prop :=
  ∀ w, ∃ tasks, (x w).2.spawned = w.spawned ++ tasks ∧ ∀ task ∈ tasks, P w task

/-- A call that never spawns spawns nothing else. -/
theorem Quiet.spawnsOnly {x : Db τ α} (hx : Quiet x) : SpawnsOnly P x := fun w =>
  ⟨[], (hx w).trans (List.append_nil _).symm, List.forall_mem_nil _⟩

/-- A call that goes on spawns the futures of both parts. -/
theorem SpawnsOnly.bind {x : Db τ α} {f : α → Db τ β} (hx : SpawnsOnly P x)
    (hf : ∀ a, SpawnsOnly Q (f a))
    (hQ : ∀ {w v a task}, x w = (.ok a, v) → Q v task → P w task) : SpawnsOnly P (x >>= f) := by
  intro w
  obtain ⟨tasks, hspawned, htasks⟩ := hx w
  cases h : x w with
  | mk result v =>
    rw [h] at hspawned
    cases result with
    | error e =>
      rw [Prog.bind_of_error h]
      exact ⟨tasks, hspawned, htasks⟩
    | ok a =>
      obtain ⟨tasks', hspawned', htasks'⟩ := hf a v
      rw [Prog.bind_of_ok h]
      refine ⟨tasks ++ tasks', ?_, fun task htask => ?_⟩
      · rw [hspawned', hspawned, List.append_assoc]
      · rcases List.mem_append.1 htask with htask | htask
        · exact htasks task htask
        · exact hQ h (htasks' task htask)

/-- A loop spawns what its rounds do. -/
theorem SpawnsOnly.each {f : β → Db τ Unit} (hf : ∀ b, SpawnsOnly P (f b))
    (hP : ∀ {b w v task}, f b w = (.ok (), v) → P v task → P w task) :
    ∀ l : List β, SpawnsOnly P (Prog.each l f)
  | [] => Quiet.spawnsOnly fun _ => rfl
  | b :: l => (hf b).bind (fun _ => SpawnsOnly.each hf hP l) hP

/-- A transaction spawns what its closure does, committed or not. -/
theorem SpawnsOnly.transaction {x : Db τ α} (hx : SpawnsOnly P x)
    (hP : ∀ {w task}, P w.opened task → P w task) : SpawnsOnly P (transaction x) := by
  intro w
  cases h : w.faults w.stmts with
  | some code =>
    refine ⟨[], ?_, List.forall_mem_nil _⟩
    simp [Websub.transaction, h, World.observe]
  | none =>
    obtain ⟨t, ht⟩ := exists_closed x h
    obtain ⟨tasks, hspawned, htasks⟩ := hx w.opened
    rw [ht]
    exact ⟨tasks, hspawned, fun task htask => hP (htasks task htask)⟩

/-- A call that makes a future of the kind, and spawns it. -/
theorem SpawnsOnly.spawn {x : Db τ τ} (hx : Quiet x)
    (hP : ∀ {w v task}, x w = (.ok task, v) → P w task) :
    SpawnsOnly P (x >>= fun task => spawn task) := by
  intro w
  have hspawned := hx w
  cases h : x w with
  | mk result v =>
    rw [h] at hspawned
    cases result with
    | error e =>
      rw [Prog.bind_of_error h]
      exact ⟨[], hspawned.trans (List.append_nil _).symm, List.forall_mem_nil _⟩
    | ok task =>
      rw [Prog.bind_of_ok h]
      exact ⟨[task], congrArg (· ++ [task]) hspawned, List.forall_mem_singleton.2 (hP h)⟩

end SpawnsOnly

/-- The task is to subscribe to a row of a free id, whose callback is made from `base`. -/
structure Subscribes (env : Env) (base : Uri cs) (w : World (Task cs)) (task : Task cs) : Prop where
  drawn : task.id ∈ w.rng
  free : w.store.free task.id = true
  callback : makeCallback env.engine base task.id = some task.form.callback
  isSubscribe : task.form.isSubscribe = true

section Spawned

variable (env : Env) (service : Service cs)

/-- An id that is free once a row is added was free before. -/
theorem free_of_rows {t u : Subscriptions} {r : Row} (h : u.rows = t.rows ++ [r]) {id : UInt64}
    (hfree : u.free id = true) : t.free id = true := by
  unfold Subscriptions.free Table.keys at hfree ⊢
  rw [h, List.map_append] at hfree
  simp only [List.mem_append, decide_eq_true_eq, not_or] at hfree ⊢
  exact hfree.1

/-- A created row has an id that was free. -/
theorem free_of_created {id : UInt64} {hub topic secret : String} {w w' : World (Task cs)}
    (h : Created id hub topic secret w w') : w.store.free id = true :=
  decide_eq_true (Table.not_mem_keys_of_rows h.rows)

/-- However `renew_subscriptions` ends, it spawns requests to subscribe only. -/
theorem Service.spawnsOnly_renewSubscriptions (now : UInt64) :
    SpawnsOnly (Subscribes env service.callback) (service.renewSubscriptions env now) := by
  have heach (l : List (UInt64 × String × String)) :
      SpawnsOnly (Subscribes env service.callback) (service.renewEach env l) := by
    refine SpawnsOnly.each (fun p => SpawnsOnly.spawn (Hub.quiet_subscribe env _ _ _) ?_) ?_ l
    · intro w v task h
      obtain ⟨id, secret, c, hc, rfl, hcreated⟩ := Hub.created_of_subscribe h
      exact ⟨hcreated.drawn, free_of_created hcreated, hc, rfl⟩
    · intro p w v task h hsub
      obtain ⟨task', u, hu, hv⟩ := Prog.ok_of_bind h
      obtain ⟨-, rfl⟩ := Prod.mk.inj hv
      obtain ⟨id, secret, c, -, -, hcreated⟩ := Hub.created_of_subscribe hu
      exact ⟨hcreated.rng.subset hsub.drawn, free_of_rows hcreated.rows hsub.free, hsub.callback,
        hsub.isSubscribe⟩
  unfold Service.renewSubscriptions
  cases renewalThreshold env service.renewalMargin now with
  | none => exact (quiet_stop _).spawnsOnly
  | some threshold =>
    refine SpawnsOnly.transaction (SpawnsOnly.bind (Q := Subscribes env service.callback)
      (quiet_statement _).spawnsOnly (fun expiring => ?_) ?_)
      fun h => ⟨h.drawn, h.free, h.callback, h.isSubscribe⟩
    · split
      · exact Quiet.spawnsOnly fun _ => rfl
      · exact (heach expiring).bind (Q := fun _ _ => False)
          (fun _ => (quiet_statement _).spawnsOnly) fun _ h => h.elim
    · intro w v expiring task h hsub
      obtain ⟨-, rfl⟩ := ok_of_statement h
      exact ⟨hsub.drawn, hsub.free, hsub.callback, hsub.isSubscribe⟩

/-- The transaction of `verify_intent` spawns requests to unsubscribe only. -/
theorem Service.spawnsOnly_activate (id : UInt64) (hub topic : String) (expiresAt : Int64) :
    SpawnsOnly (fun _ task => task.form.isSubscribe = false)
      (service.activate env id hub topic expiresAt) := by
  refine SpawnsOnly.transaction (SpawnsOnly.bind (quiet_statement _).spawnsOnly (fun old => ?_)
    fun _ h => h) fun h => h
  refine SpawnsOnly.bind ?_ (fun _ => ?_) fun _ h => h
  · refine SpawnsOnly.each (fun id => SpawnsOnly.spawn (Hub.quiet_unsubscribe env _ _ _ _) ?_)
      (fun _ h => h) old
    intro w v task h
    obtain ⟨c, -, rfl, -⟩ := Hub.ok_of_unsubscribe h
    rfl
  · exact ((quiet_statement _).bind fun _ _ => rfl).spawnsOnly

end Spawned

/-! ## What a step sends -/

/-- A form that is sent to a hub. -/
structure Message (cs : Charset) where
  hub : String
  form : Form cs
deriving DecidableEq

/-- What a task sends. -/
def Task.message (task : Task cs) : Message cs :=
  ⟨task.hub, task.form⟩

/-- A form that subscribes is for what the row says. -/
def Message.Fits (m : Message cs) (r : Row) : Prop :=
  match m.form with
  | .subscribe _ topic secret => r.hub = m.hub ∧ r.topic = topic ∧ r.secret = secret
  | .unsubscribe _ _ => True

/-- What the callbacks of a step are made from. -/
def SystemAction.base (service : Service cs) : SystemAction cs → Uri cs
  | .subscribe callback _ _ _ | .unsubscribe callback _ _ _ _ => callback
  | _ => service.callback

/-- A new request is to unsubscribe, or to subscribe to a row of an id that was drawn and free,
and the step has left that row as the request says, or none. -/
inductive Sends (env : Env) (service : Service cs) (s t : System cs) (a : SystemAction cs)
    (task : Task cs) : Prop
  | unsubscribe (h : task.form.isSubscribe = false)
  | subscribe (drawn : task.id ∈ a.drawn) (free : s.store.free task.id = true)
      (callback : makeCallback env.engine (a.base service) task.id = some task.form.callback)
      (row : ∀ r ∈ t.store, r.id = task.id.toInt64 → task.message.Fits r)

section Sends

variable {env : Env} {service : Service cs} {s t : System cs}

/-- The request for a row has its id, and what it says. -/
theorem SubscribesTo.fits {n : Row} {task : Task cs} (h : SubscribesTo env service n task) :
    task.id = n.id.toUInt64 ∧ task.message.Fits n := by
  obtain ⟨c, -, rfl⟩ := h
  exact ⟨rfl, rfl, rfl, rfl⟩

/-- No row has an id that is free. -/
theorem ne_of_free {t : Subscriptions} {id : UInt64} (h : t.free id = true) {r : Row} (hr : r ∈ t) :
    r.id ≠ id.toInt64 := fun hid =>
  of_decide_eq_true h (hid ▸ Table.key_mem_keys hr)

/-- The requests of a renewal fit the rows it has left. -/
theorem RenewalLeaves.fits {rng : List UInt64} {t t' : Subscriptions} {tasks : List (Task cs)}
    (h : RenewalLeaves env service rng t t' tasks) {task : Task cs} (htask : task ∈ tasks)
    (hfree : t.free task.id = true) {r : Row} (hr : r ∈ t') (hid : r.id = task.id.toInt64) :
    task.message.Fits r := by
  rcases h with rfl | ⟨threshold, news, hrows, hrenew⟩
  · exact absurd hid (ne_of_free hfree hr)
  · obtain ⟨n, hn, hsub⟩ := exists_left_of_forall₂ hrenew.tasks htask
    have hmem : n ∈ t' := by
      rw [Table.mem_def, hrows]
      exact List.mem_append_right _ hn
    obtain ⟨htid, hfits⟩ := hsub.fits
    rw [htid, Int64.toInt64_toUInt64] at hid
    rw [Table.eq_of_key hr hmem hid]
    exact hfits

/-- A renewal sends forms to subscribe to the rows it adds. -/
theorem sends_of_renewal {now : UInt64} {d : Draws} {r : Except Stop Unit} {w : World (Task cs)}
    (h : service.renewSubscriptions env now (s.world d) = (r, w)) {a : SystemAction cs}
    (ha : a = .tickRenew now d ∨ a = .renew now d) (ht : t.store = w.committed) {task : Task cs}
    (htask : task ∈ w.spawned) : Sends env service s t a task := by
  have hleaves := System.renewalLeaves h
  obtain ⟨tasks, hspawned, htasks⟩ :=
    Service.spawnsOnly_renewSubscriptions env service now (s.world d)
  rw [h] at hspawned
  obtain rfl : w.spawned = tasks := hspawned
  obtain ⟨hdrawn, hfree, hcallback, -⟩ := htasks task htask
  have hrow : ∀ r ∈ t.store, r.id = task.id.toInt64 → task.message.Fits r := fun r hr hid =>
    hleaves.fits htask hfree (ht ▸ hr) hid
  rcases ha with rfl | rfl <;> exact .subscribe hdrawn hfree hcallback hrow

/-- What every step sends. -/
theorem System.sends_of_step {a : SystemAction cs} (h : s.step env service a = some t)
    {task : Task cs} (htask : task ∈ t.requests.drop s.requests.length) :
    Sends env service s t a task := by
  cases a with
  | tickRenew now d =>
    simp only [step] at h
    split at h
    · split at h
      · rename_i w hr
        obtain rfl := Option.some_inj.1 h
        rw [List.drop_left] at htask
        exact sends_of_renewal hr (.inl rfl) rfl htask
      · rename_i e w hr
        obtain ⟨scheduler, -, rfl⟩ := Option.map_eq_some_iff.1 h
        rw [List.drop_left] at htask
        exact sends_of_renewal hr (.inl rfl) rfl htask
    · cases h
  | renew now d =>
    obtain rfl := Option.some_inj.1 h
    rw [List.drop_left] at htask
    exact sends_of_renewal rfl (.inr rfl) rfl htask
  | subscribe callback hub topic d =>
    simp only [step] at h
    split at h <;> rename_i hr
    · rename_i w
      obtain rfl := Option.some_inj.1 h
      rw [List.drop_left, List.mem_singleton] at htask
      subst htask
      have hcomm := committed_of_keeps (s := s) (Hub.keeps_subscribe env callback hub topic) d
      rw [hr] at hcomm
      obtain ⟨id, secret, c, hc, rfl, hcreated⟩ := Hub.created_of_subscribe hr
      refine .subscribe hcreated.drawn (free_of_created hcreated) hc fun r hr hid => ?_
      have hrows : w.committed.rows = s.store.rows ++ [⟨id.toInt64, hub, topic, secret, none⟩] :=
        (congrArg Table.rows hcomm).trans hcreated.rows
      rcases (Table.mem_iff_of_rows hrows).1 hr with hr | rfl
      · exact absurd hid (ne_of_free (free_of_created hcreated) hr)
      · exact ⟨rfl, rfl, rfl⟩
    · obtain rfl := Option.some_inj.1 h
      simp at htask
  | unsubscribe callback id hub topic d =>
    simp only [step] at h
    split at h <;> rename_i hr
    · obtain rfl := Option.some_inj.1 h
      rw [List.drop_left, List.mem_singleton] at htask
      obtain ⟨c, -, rfl, -⟩ := Hub.ok_of_unsubscribe hr
      rw [htask]
      exact .unsubscribe rfl
    · obtain rfl := Option.some_inj.1 h
      simp at htask
  | verifyCommit i d =>
    simp only [step] at h
    split at h
    · rename_i c hc
      split at h
      · rename_i expiresAt hstage
        obtain ⟨tasks, hspawned, htasks⟩ :=
          Service.spawnsOnly_activate env service c.id c.hub c.topic expiresAt (s.world d)
        split at h <;> rename_i hr <;>
        · obtain rfl := Option.some_inj.1 h
          rw [hr] at hspawned
          rw [List.drop_left, hspawned] at htask
          exact .unsubscribe (htasks task htask)
      · cases h
    · cases h
  | _ =>
    have hle : t.requests.length ≤ s.requests.length := by
      cases outcome_of_step h <;> simp [List.length_eraseIdx_le]
    rw [List.drop_eq_nil_of_le hle] at htask
    cases htask

end Sends

/-! ## What a step leaves of the rows -/

section Rows

variable {env : Env} {service : Service cs} {s t : System cs} {a : SystemAction cs}

/-- A row that is active after a step was so before it, or is that of the call that the step
answers. -/
theorem Stored.active_or_answered (h : Stored env service s t a) {r' : Row} (hr : r' ∈ t.store)
    (hact : r'.expiresAt ≠ none) :
    (∃ r ∈ s.store, r.id = r'.id ∧ r.expiresAt ≠ none) ∨
      ∃ i d c, a = .verifyCommit i d ∧ s.calls[i]? = some c ∧ r'.id = c.id.toInt64 ∧
        answersChallenge t a = true := by
  cases h with
  | same store => exact .inl ⟨r', store ▸ hr, rfl, hact⟩
  | created rows drawn =>
    rcases (Table.mem_iff_of_rows rows).1 hr with hr | rfl
    · exact .inl ⟨r', hr, rfl, hact⟩
    · exact absurd rfl hact
  | deleted store =>
    rw [store] at hr
    exact .inl ⟨r', (Table.mem_delete.1 hr).1, rfl, hact⟩
  | renewed action store => exact .inl ⟨r', store.mem_of_active hr hact, rfl, hact⟩
  | @activated i d c expiresAt tasks call stage store answer =>
    obtain ⟨r, hmem, -, rfl⟩ := store.mem_iff.1 hr
    by_cases hid : r.id = c.id.toInt64
    · refine .inr ⟨i, d, c, rfl, call, by simpa using hid, ?_⟩
      have hi : i < s.calls.length := (List.getElem?_eq_some_iff.1 call).1
      simp [answersChallenge, answer, List.getElem?_set_self hi]
    · rw [Row.activate_of_ne hid] at hact ⊢
      exact .inl ⟨r, hmem, rfl, hact⟩

/-- The step is the start of a call of `verify_intent`. -/
def SystemAction.startsCall : SystemAction cs → Bool
  | .verifyRead _ _ _ _ => true
  | _ => false

/-- A call keeps its id. -/
theorem map_id_set {calls : List Call} {i : ℕ} {c c' : Call} (hc : calls[i]? = some c)
    (hid : c'.id = c.id) : (calls.set i c').map Call.id = calls.map Call.id := by
  obtain ⟨hi, rfl⟩ := List.getElem?_eq_some_iff.1 hc
  have hi' : i < (calls.map Call.id).length := by rwa [List.length_map]
  have hget : c'.id = (calls.map Call.id)[i] := by rw [hid, List.getElem_map]
  rw [List.map_set, hget, List.set_getElem_self]

/-- Each other step leaves the calls with their ids, or, if it is a restart, none. -/
theorem Outcome.map_id_calls (h : Outcome env service s a t) (ha : a.startsCall = false) :
    t.calls.map Call.id = (s.calls.map Call.id).take t.calls.length := by
  have hsame {calls : List Call} (hc : calls.map Call.id = s.calls.map Call.id) :
      calls.map Call.id = (s.calls.map Call.id).take calls.length := by
    rw [← hc, List.take_of_length_le (List.length_map _).le]
  cases h with
  | verifyRead | verifyReadFail => cases ha
  | verifyHasten call | verifyHastenFail call | verifyCommit call | verifyCommitFail call =>
    exact hsame (map_id_set call rfl)
  | restart => rfl
  | _ => exact hsame rfl

end Rows

end Websub
