import Websub.Backend
import Websub.Commit

/-!
# Creating and deleting rows

`create_subscription` draws ids until one is free, within a transaction. It takes the first
free one, and adds exactly its row, or it returns the error of the statement that fails and
has changed nothing (`allocates`).

`hub::subscribe` and `hub::unsubscribe` build the request after the row was created or
deleted, outside of a transaction. Building it panics if the hub is no URI, and then the row
is there, or gone, without a request (`allOrNothing_iff`).
-/

namespace Websub

open Tables Programs Http

/-! ## The id of a row -/

/-- A transaction that returns and is committed. -/
theorem transaction_of_returns {τ α : Type} {x : Db τ α} {w v : World τ} {a : α}
    (h0 : w.faults w.stmts = none) (hx : x w.opened = (.ok a, v))
    (hcommit : v.faults v.stmts = none) : transaction x w = (.ok a, v.closed v.store) := by
  simp only [transaction, h0, hx, hcommit]

section Ids

variable {τ : Type} (hub topic secret : String) {w : World τ} (rest : List UInt64) {id : UInt64}

/-- The first id that is free, after those that are taken. -/
theorem exists_first_free {t : Subscriptions} {rng : List UInt64}
    (h : ∃ id ∈ rng, id.toInt64 ∉ t.keys) :
    ∃ taken id rest, rng = taken ++ id :: rest ∧ (∀ x ∈ taken, x.toInt64 ∈ t.keys) ∧
      id.toInt64 ∉ t.keys := by
  induction rng with
  | nil => simp at h
  | cons x rng ih =>
    by_cases hx : x.toInt64 ∈ t.keys
    · obtain ⟨id, hid, hfree⟩ := h
      have hne : id ≠ x := fun he => hfree (he ▸ hx)
      obtain ⟨taken, id', rest, rfl, htaken, hfree'⟩ :=
        ih ⟨id, List.mem_of_ne_of_mem hne hid, hfree⟩
      exact ⟨x :: taken, id', rest, rfl, List.forall_mem_cons.2 ⟨hx, htaken⟩, hfree'⟩
    · exact ⟨[], x, rng, rfl, List.forall_mem_nil _, hx⟩

/-- A round with an id that is taken. -/
theorem insertLoop_of_taken {x : UInt64} (hx : x.toInt64 ∈ w.store.keys)
    (hf : w.faults w.stmts = none) (rng : List UInt64) :
    insertLoop hub topic secret (x :: rng) w =
      insertLoop hub topic secret rng (w.drawn rng).observe := by
  have hins : w.store.insert ⟨x.toInt64, hub, topic, secret, none⟩ = none :=
    Table.insert_eq_none_iff.2 hx
  conv_lhs => unfold insertLoop
  rw [hf, hins]

/-- The loop passes over the ids that are taken, and takes the first that is free. -/
theorem insertLoop_of_free : ∀ {taken : List UInt64} {w : World τ},
    (∀ x ∈ taken, x.toInt64 ∈ w.store.keys) → id.toInt64 ∉ w.store.keys →
    (∀ n ≤ taken.length, w.faults (w.stmts + n) = none) →
    ∃ v, insertLoop hub topic secret (taken ++ id :: rest) w = (.ok id, v) ∧ v.rng = rest ∧
      v.store.rows = w.store.rows ++ [⟨id.toInt64, hub, topic, secret, none⟩] ∧
      v.faults = w.faults ∧ v.stmts = w.stmts + taken.length + 1
  | [], w, _, hfree, hf => by
    cases hins : w.store.insert ⟨id.toInt64, hub, topic, secret, none⟩ with
    | none => exact absurd (Table.insert_eq_none_iff.1 hins) hfree
    | some t =>
      refine ⟨{ w.drawn rest with store := t }.observe, ?_, rfl, Table.rows_of_insert hins, rfl,
        rfl⟩
      have h0 := hf 0 le_rfl
      rw [Nat.add_zero] at h0
      simp only [List.nil_append, insertLoop, h0, hins]
  | x :: taken, w, htaken, hfree, hf => by
    obtain ⟨hx, htaken⟩ := List.forall_mem_cons.1 htaken
    obtain ⟨h0, hf⟩ := none_upto_succ.1 hf
    obtain ⟨v, hv, hrng, hrows, hfaults, hstmts⟩ :=
      insertLoop_of_free (w := (w.drawn (taken ++ id :: rest)).observe) htaken hfree hf
    refine ⟨v, ?_, hrng, hrows, hfaults, ?_⟩
    · rw [List.cons_append, insertLoop_of_taken hub topic secret hx h0, hv]
    · rw [hstmts, List.length_cons]
      change w.stmts + 1 + taken.length + 1 = _
      omega

/-- The loop stops at the first statement that fails. -/
theorem insertLoop_of_fault (y : UInt64) {code : ℕ} : ∀ {taken : List UInt64} {w : World τ},
    (∀ x ∈ taken, x.toInt64 ∈ w.store.keys) →
    (∀ n < taken.length, w.faults (w.stmts + n) = none) →
    w.faults (w.stmts + taken.length) = some code →
    ∃ v, insertLoop hub topic secret (taken ++ y :: rest) w = (.error (.error (.other code)), v)
  | [], w, _, _, hcode => by
    refine ⟨(w.drawn rest).observe, ?_⟩
    rw [List.length_nil, Nat.add_zero] at hcode
    simp only [List.nil_append, insertLoop, hcode]
  | x :: taken, w, htaken, hf, hcode => by
    obtain ⟨hx, htaken⟩ := List.forall_mem_cons.1 htaken
    have h0 := hf 0 (by simp)
    have hstmts (n : ℕ) : w.stmts + (n + 1) = w.stmts + 1 + n := by omega
    rw [List.length_cons, hstmts] at hcode
    obtain ⟨v, hv⟩ := insertLoop_of_fault y
      (w := (w.drawn (taken ++ y :: rest)).observe) htaken
      (fun n hn => (hstmts n).symm ▸ hf (n + 1) (by simpa using hn)) hcode
    exact ⟨v, by rw [List.cons_append, insertLoop_of_taken hub topic secret hx h0, hv]⟩

end Ids

/-- What `create_subscription` does where some random value is a free id : the first such
value is `id`, between the values `taken` and `rest`. -/
structure Allocates {τ : Type} (hub topic secret : String) (w : World τ) (taken : List UInt64)
    (id : UInt64) (rest : List UInt64) : Prop where
  rng : w.rng = taken ++ id :: rest
  mem_keys : ∀ x ∈ taken, x.toInt64 ∈ w.store.keys
  free : id.toInt64 ∉ w.store.keys
  /-- Where no statement fails, the row is added. -/
  ok : (∀ n ≤ taken.length + 2, w.faults (w.stmts + n) = none) →
    ∃ w', createSubscription hub topic secret w = (.ok id, w') ∧ w'.rng = rest ∧
      w'.store.rows = w.store.rows ++ [⟨id.toInt64, hub, topic, secret, none⟩]
  /-- Where a statement fails, its error is returned and nothing has changed. -/
  error : ∀ m ≤ taken.length + 2, ∀ code, (∀ n < m, w.faults (w.stmts + n) = none) →
    w.faults (w.stmts + m) = some code →
      ∃ w', createSubscription hub topic secret w = (.error (.error (.other code)), w') ∧
        w'.store = w.store
  /-- The back ends do the same on the same table. -/
  backends : ∀ (plan : Plan) (s : Session), s.table = w.store → s.rng = w.rng →
    ∀ conn ∈ [diesel1 plan, diesel2 plan],
      ∃ s', conn.createSubscription hub topic secret s = (.ok id, s') ∧ s'.rng = rest ∧
        s'.table.rows = w.store.rows ++ [⟨id.toInt64, hub, topic, secret, none⟩]

section Allocates

variable {τ : Type} (hub topic secret : String) {w : World τ} {taken rest : List UInt64}
  {id : UInt64}

theorem createSubscription_of_free (hrng : w.rng = taken ++ id :: rest)
    (htaken : ∀ x ∈ taken, x.toInt64 ∈ w.store.keys) (hfree : id.toInt64 ∉ w.store.keys)
    (hf : ∀ n ≤ taken.length + 2, w.faults (w.stmts + n) = none) :
    ∃ w', createSubscription hub topic secret w = (.ok id, w') ∧ w'.rng = rest ∧
      w'.store.rows = w.store.rows ++ [⟨id.toInt64, hub, topic, secret, none⟩] := by
  obtain ⟨h0, hf⟩ := none_upto_succ.1 hf
  obtain ⟨v, hv, hvrng, hrows, hfaults, hstmts⟩ :
      ∃ v, insertLoop hub topic secret (taken ++ id :: rest) w.opened = (.ok id, v) ∧
        v.rng = rest ∧
        v.store.rows = w.store.rows ++ [⟨id.toInt64, hub, topic, secret, none⟩] ∧
        v.faults = w.faults ∧ v.stmts = w.stmts + 1 + taken.length + 1 :=
    insertLoop_of_free hub topic secret rest (w := w.opened) htaken hfree
      fun n hn => hf n (by omega)
  have hloop : insertLoop hub topic secret w.opened.rng w.opened = (.ok id, v) := by
    rw [← hv, ← hrng]
    rfl
  have hcommit : v.faults v.stmts = none := by
    rw [hfaults, hstmts]
    exact hf (taken.length + 1) le_rfl
  exact ⟨v.closed v.store, transaction_of_returns h0 hloop hcommit, hvrng, hrows⟩

theorem createSubscription_of_fault (hrng : w.rng = taken ++ id :: rest)
    (htaken : ∀ x ∈ taken, x.toInt64 ∈ w.store.keys) (hfree : id.toInt64 ∉ w.store.keys)
    {m : ℕ} (hm : m ≤ taken.length + 2) {code : ℕ}
    (hf : ∀ n < m, w.faults (w.stmts + n) = none) (hcode : w.faults (w.stmts + m) = some code) :
    ∃ w', createSubscription hub topic secret w = (.error (.error (.other code)), w') := by
  have hopened : w.opened.rng = taken ++ id :: rest := hrng
  have hshift (n : ℕ) : w.stmts + (n + 1) = w.opened.stmts + n := by
    change _ = w.stmts + 1 + n
    omega
  unfold createSubscription transaction
  obtain _ | k := m
  · -- The transaction is not opened.
    rw [Nat.add_zero] at hcode
    simp only [hcode]
    exact ⟨_, rfl⟩
  · have h0 := hf 0 (Nat.succ_pos k)
    rw [Nat.add_zero] at h0
    rw [hshift] at hcode
    have hf' : ∀ n < k, w.opened.faults (w.opened.stmts + n) = none := fun n hn => by
      rw [← hshift]
      exact hf (n + 1) (Nat.succ_lt_succ hn)
    simp only [h0, hopened]
    by_cases hk : k ≤ taken.length
    · -- An insertion fails.
      obtain ⟨y, l, hl⟩ : ∃ y l, taken ++ id :: rest = taken.take k ++ y :: l := by
        obtain ⟨y, l, hl⟩ := List.exists_cons_of_ne_nil
          (show taken.drop k ++ id :: rest ≠ [] by simp)
        exact ⟨y, l, by rw [← hl, ← List.append_assoc, List.take_append_drop]⟩
      have hlen : (taken.take k).length = k := List.length_take_of_le hk
      obtain ⟨v, hv⟩ := insertLoop_of_fault hub topic secret l y (w := w.opened)
        (fun x hx => htaken x (List.mem_of_mem_take hx)) (by rwa [hlen]) (by rwa [hlen])
      rw [hl, hv]
      exact ⟨_, rfl⟩
    · -- The transaction is not committed.
      obtain rfl : k = taken.length + 1 := by omega
      obtain ⟨v, hv, -, -, hfaults, hstmts⟩ :=
        insertLoop_of_free hub topic secret rest (w := w.opened) htaken hfree
          fun n hn => hf' n (by omega)
      have hcommit : v.faults v.stmts = some code := by
        rw [hfaults, hstmts]
        exact hcode
      simp only [hv, hcommit]
      exact ⟨_, rfl⟩

/-- The loop of the back ends takes the same id. -/
theorem backend_of_free {s : Session} (hrng : s.rng = taken ++ id :: rest)
    (htaken : ∀ x ∈ taken, x.toInt64 ∈ s.table.keys) (hfree : id.toInt64 ∉ s.table.keys) :
    ∃ s', Diesel1.createSubscription hub topic secret s = (.ok id, s') ∧ s'.rng = rest ∧
      s'.table.rows = s.table.rows ++ [⟨id.toInt64, hub, topic, secret, none⟩] := by
  -- The connection of a service on the same table, where no statement fails.
  have hsame : SameTable (World.start s.table (fun _ => none) s.rng
      (fun _ => Vector.replicate 24 0) 0 : World Unit) s := ⟨rfl, rfl, fun _ => rfl⟩
  obtain ⟨w', hw', hrest, hrows⟩ :=
    createSubscription_of_free hub topic secret (w := (World.start s.table (fun _ => none) s.rng
      (fun _ => Vector.replicate 24 0) 0 : World Unit)) hrng htaken hfree fun _ _ => rfl
  have halike := (simulates_diesel2 Unit).createSubscription hub topic secret _ _ hsame
  rw [hw'] at halike
  generalize hrun : (diesel2 .inOrder).createSubscription hub topic secret s = run at halike
  cases halike with
  | ok hend => exact ⟨_, hrun, hend.2.1.symm.trans hrest, by rw [← hend.1, hrows]; rfl⟩

end Allocates

/-- For every store and all random values among which is a free id : the loop takes the first
one and adds exactly its row, and if a statement fails its error is returned and nothing has
changed. -/
theorem allocates {τ : Type} (hub topic secret : String) {w : World τ}
    (h : ∃ id ∈ w.rng, id.toInt64 ∉ w.store.keys) :
    ∃ taken id rest, Allocates hub topic secret w taken id rest := by
  obtain ⟨taken, id, rest, hrng, htaken, hfree⟩ := exists_first_free h
  refine ⟨taken, id, rest, hrng, htaken, hfree, ?_, ?_, ?_⟩
  · exact createSubscription_of_free hub topic secret hrng htaken hfree
  · intro m hm code hf hcode
    obtain ⟨w', hw'⟩ :=
      createSubscription_of_fault hub topic secret hrng htaken hfree hm hf hcode
    have hstore := store_of_transaction_error
      (fun w => keeps_insertLoop hub topic secret w.rng w) hw'
    exact ⟨w', hw', hstore⟩
  · intro plan s htable hsrng conn hconn
    rw [← hsrng] at hrng
    rw [← htable] at htaken hfree ⊢
    obtain ⟨s', hs', hrest, hrows⟩ := backend_of_free hub topic secret hrng htaken hfree
    rcases List.mem_pair.1 hconn with rfl | rfl
    · exact ⟨s', hs', hrest, hrows⟩
    · exact ⟨s', hs', hrest, hrows⟩

/-- The ids 1 and 2 are taken, and 3 is free. -/
theorem allocates_example :
    ∃ taken id rest, Allocates "http://example.com/hub" "topic" "secret"
      (World.start (exampleStore "topic" none) (fun _ => none) [1, 2, 3]
        (fun _ => Vector.replicate 24 0) noTick : World Unit) taken id rest :=
  allocates _ _ _ ⟨3, by decide, by decide⟩

/-! ## The request of a row -/

section Requests

variable {cs : Charset} {env : Env} {callback : Uri cs} {hub topic : String} {id : UInt64}

/-- Either the call returns a request to the hub, whose callback is that of the row it is for
and which goes with the change of that row, or it returns an error and nothing has changed. A
call that still loops has changed nothing. -/
def AllOrNothing (env : Env) (callback : Uri cs) (hub : String) (t : Subscriptions)
    (Change : Task cs → Uri cs → Subscriptions → Prop)
    (r : Except Stop (Task cs) × World (Task cs)) : Prop :=
  match r.1 with
  | .ok task => task.hub = hub ∧
    ∃ c, makeCallback env.engine callback task.id = some c ∧ Change task c r.2.committed
  | .error (.error _) => r.2.committed = t
  | .error .panicked => False
  | .error .starved => r.2.committed = t

/-- The request subscribes, and its row was added. -/
def Subscribed (hub topic : String) (t : Subscriptions) (task : Task cs) (c : Uri cs)
    (t' : Subscriptions) : Prop :=
  ∃ secret, task.form = .subscribe c topic secret ∧
    t'.rows = t.rows ++ [⟨task.id.toInt64, hub, topic, secret, none⟩]

/-- The request unsubscribes, and its row was deleted. -/
def Unsubscribed (id : UInt64) (topic : String) (t : Subscriptions) (task : Task cs) (c : Uri cs)
    (t' : Subscriptions) : Prop :=
  task.id = id ∧ task.form = .unsubscribe c topic ∧ t' = (t.deleteSubscriptions id).2

/-- A request is built, or building it panics as the callback has no path or the hub is no
URI. -/
theorem request_cases (env : Env) (callback : Uri cs) (id : UInt64) (hub : String)
    (form : Uri cs → Form cs) (w : World (Task cs)) :
    (∃ c, makeCallback env.engine callback id = some c ∧
      (match makeCallback env.engine callback id with
        | none => Prog.stop .panicked
        | some c => Hub.sendRequest env id hub (form c) : Db (Task cs) (Task cs)) w =
          (.ok ⟨id, hub, form c⟩, w) ∧ env.isUri hub = true ∧ callback.hasPath = true) ∨
    ((match makeCallback env.engine callback id with
        | none => Prog.stop .panicked
        | some c => Hub.sendRequest env id hub (form c) : Db (Task cs) (Task cs)) w =
          (.error .panicked, w) ∧ ¬(env.isUri hub = true ∧ callback.hasPath = true)) := by
  cases hc : makeCallback env.engine callback id with
  | none =>
    refine .inr ⟨rfl, fun ⟨_, hpath⟩ => ?_⟩
    obtain ⟨u, hu, -⟩ := makeCallback_spec env.engine hpath id
    cases hc.symm.trans hu
  | some c =>
    by_cases hu : env.isUri hub = true
    · refine .inl ⟨c, rfl, ?_, hu, hasPath_of_makeCallback hc⟩
      simp only [Hub.sendRequest, if_pos hu]
      rfl
    · refine .inr ⟨?_, fun h => hu h.1⟩
      simp only [Hub.sendRequest, if_neg hu]
      rfl

/-- The loop ends with a row, an error, or not yet. -/
theorem insertLoop_ne_panicked {τ : Type} (hub topic secret : String) :
    ∀ (rng : List UInt64) (w : World τ),
      (insertLoop hub topic secret rng w).1 ≠ .error .panicked
  | [], w => by simp [insertLoop]
  | x :: rng, w => by
    unfold insertLoop
    split
    · simp
    · split
      · simp
      · exact insertLoop_ne_panicked hub topic secret rng _

/-- Only the closure of a transaction panics. -/
theorem panicked_of_transaction {τ α : Type} {x : Db τ α} {w v : World τ}
    (h : transaction x w = (.error .panicked, v)) : (x w.opened).1 = .error .panicked := by
  rw [transaction] at h
  split at h
  · cases (Prod.mk.inj h).1
  · split at h
    · split at h <;> cases (Prod.mk.inj h).1
    · rename_i e w' hx
      obtain ⟨he, -⟩ := Prod.mk.inj h
      rw [hx]
      exact he

theorem createSubscription_ne_panicked {w v : World (Task cs)} {e : Stop}
    (h : Hub.createSubscription env hub topic w = (.error e, v)) : e ≠ .panicked := by
  rintro rfl
  rcases Prog.error_of_bind h with h | ⟨secret, u, -, h⟩
  · cases (Prod.mk.inj h).1
  · rcases Prog.error_of_bind h with h | ⟨id, x, -, h⟩
    · exact insertLoop_ne_panicked hub topic secret _ _ (panicked_of_transaction h)
    · cases (Prod.mk.inj h).1

section AllOrNothing

variable (t : Subscriptions) (faults : ℕ → Option ℕ) (rng : List UInt64)
  (fills : ℕ → Vector UInt8 24) (nextTick : UInt64)

/-- A call that changes a row and then builds the request of the row is all or nothing, if a
request is built wherever the row is changed. -/
theorem allOrNothing_bind_iff {α : Type} {x : Db (Task cs) α} {Change : Task cs → Uri cs →
      Subscriptions → Prop} {w : World (Task cs)} (id : α → UInt64) (form : α → Uri cs → Form cs)
    (hw : w = World.start t faults rng fills nextTick) (hkeeps : Keeps x)
    (herror : ∀ e v, x w = (.error e, v) → e ≠ .panicked ∧ v.store = t)
    (hchange : ∀ a v c, x w = (.ok a, v) → Change ⟨id a, hub, form a c⟩ c v.store) :
    AllOrNothing env callback hub t Change ((x >>= fun a =>
        match makeCallback env.engine callback (id a) with
        | none => Prog.stop .panicked
        | some c => Hub.sendRequest env (id a) hub (form a c)) w) ↔
      (Returns x w → env.isUri hub = true ∧ callback.hasPath = true) := by
  have hcommitted : (x w).2.committed = (x w).2.store := by
    have hsaved := (hkeeps w).saved
    unfold World.committed
    rw [hsaved, hw]
    rfl
  cases hx : x w with
  | mk r v =>
    rw [hx] at hcommitted
    cases r with
    | error e =>
      -- The row is not changed.
      obtain ⟨hpanicked, hstore⟩ := herror e v hx
      have hunchanged : v.committed = t := hcommitted.trans hstore
      rw [Prog.bind_of_error hx]
      refine iff_of_true ?_ fun ⟨a, u, hu⟩ => by cases hx.symm.trans hu
      match e with
      | .error _ => exact hunchanged
      | .panicked => exact absurd rfl hpanicked
      | .starved => exact hunchanged
    | ok a =>
      -- The row is changed, and the request is for it or is not built.
      rw [Prog.bind_of_ok hx]
      rcases request_cases env callback (id a) hub (form a) v with
        ⟨c, hc, hreq, hbuilt⟩ | ⟨hreq, hnot⟩
      · have hchanged : Change ⟨id a, hub, form a c⟩ c v.committed := by
          rw [hcommitted]
          exact hchange a v c hx
        exact iff_of_true (hreq ▸ ⟨rfl, c, hc, hchanged⟩) fun _ => hbuilt
      · exact iff_of_false (fun h => by rw [AllOrNothing, hreq] at h; exact h)
          fun h => hnot (h ⟨a, v, hx⟩)

variable (env callback hub topic)

theorem allOrNothing_subscribe_iff :
    AllOrNothing env callback hub t (Subscribed hub topic t)
        (Hub.subscribe env callback hub topic (World.start t faults rng fills nextTick)) ↔
      ((∃ id ∈ rng, t.free id = true) → (∀ n ≤ rng.findIdx t.free + 2, faults n = none) →
        env.isUri hub = true ∧ callback.hasPath = true) := by
  have hreturns : Returns (Hub.createSubscription env hub topic : Db (Task cs) _)
        (World.start t faults rng fills nextTick) ↔
      (∃ id ∈ rng, t.free id = true) ∧ ∀ n ≤ rng.findIdx t.free + 2, faults n = none := by
    rw [Hub.returns_createSubscription]
    simp only [World.start, Nat.zero_add]
  rw [← and_imp, ← hreturns]
  refine allOrNothing_bind_iff t faults rng fills nextTick Prod.fst
    (fun p c => .subscribe c topic p.2) rfl (Hub.keeps_createSubscription env hub topic)
    (fun e v h => ?_) fun p v c h => ?_
  · exact ⟨createSubscription_ne_panicked h, Hub.store_of_createSubscription_error h⟩
  · exact ⟨p.2, rfl, (Hub.created_of_createSubscription h).rows⟩

theorem allOrNothing_unsubscribe_iff (id : UInt64) :
    AllOrNothing env callback hub t (Unsubscribed id topic t)
        (Hub.unsubscribe env callback id hub topic (World.start t faults rng fills nextTick)) ↔
      (faults 0 = none → env.isUri hub = true ∧ callback.hasPath = true) := by
  have hreturns : Returns (deleteSubscriptions id : Db (Task cs) Bool)
      (World.start t faults rng fills nextTick) ↔ faults 0 = none := returns_statement
  rw [← hreturns]
  refine allOrNothing_bind_iff t faults rng fills nextTick (fun _ => id)
    (fun _ c => .unsubscribe c topic) rfl (keeps_statement _) (fun e v h => ?_) fun b v c h => ?_
  · refine ⟨?_, store_of_statement_error h⟩
    rintro rfl
    unfold deleteSubscriptions statement at h
    split at h <;> cases (Prod.mk.inj h).1
  · refine ⟨rfl, rfl, ?_⟩
    rw [(ok_of_statement h).2]
    rfl

end AllOrNothing

end Requests

/-- Outside of a transaction, for every store, all failing statements and all random values :
`subscribe` and `unsubscribe` change their row and return its request, or change nothing and
return an error, exactly if the hub is a URI and the callback has a path wherever the row is
changed. -/
theorem allOrNothing_iff {cs : Charset} (env : Env) (callback : Uri cs) (hub topic : String)
    (t : Subscriptions) (faults : ℕ → Option ℕ) (rng : List UInt64)
    (fills : ℕ → Vector UInt8 24) (nextTick : UInt64) :
    (AllOrNothing env callback hub t (Subscribed hub topic t)
        (Hub.subscribe env callback hub topic (World.start t faults rng fills nextTick)) ↔
      ((∃ id ∈ rng, t.free id = true) → (∀ n ≤ rng.findIdx t.free + 2, faults n = none) →
        env.isUri hub = true ∧ callback.hasPath = true)) ∧
    ∀ id, (AllOrNothing env callback hub t (Unsubscribed id topic t)
        (Hub.unsubscribe env callback id hub topic (World.start t faults rng fills nextTick)) ↔
      (faults 0 = none → env.isUri hub = true ∧ callback.hasPath = true)) :=
  ⟨allOrNothing_subscribe_iff env callback hub topic t faults rng fills nextTick,
    allOrNothing_unsubscribe_iff env callback hub topic t faults rng fills nextTick⟩

/-- The connection of the examples : the subscriptions 1 and 2, and the random id 3. -/
def feedWorld : World (Task .http) :=
  .start (exampleStore "topic" none) (fun _ => none) [3] (fun _ => Vector.replicate 24 0) noTick

/-- The hub of a feed that is no URI : the row 3 is created, and then the call panics. -/
theorem not_allOrNothing_example :
    ¬ AllOrNothing exampleEnv exampleService.callback "the hub" (exampleStore "topic" none)
        (Subscribed "the hub" "topic" (exampleStore "topic" none))
        (Hub.subscribe exampleEnv exampleService.callback "the hub" "topic" feedWorld) ∧
      (Hub.subscribe exampleEnv exampleService.callback "the hub" "topic" feedWorld).1 =
        .error .panicked ∧
      (Hub.subscribe exampleEnv exampleService.callback "the hub" "topic"
        feedWorld).2.committed.rows.map Row.id = [1, 2, 3] := by
  have hrun : (Hub.subscribe exampleEnv exampleService.callback "the hub" "topic" feedWorld).1 =
      .error .panicked := by
    decide
  refine ⟨fun h => ?_, hrun, by decide⟩
  rw [AllOrNothing, hrun] at h
  exact h

end Websub
