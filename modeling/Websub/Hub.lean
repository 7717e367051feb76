import Websub.Callback
import Websub.Db

/-!
# Requests to hubs

`hub.rs`. `subscribe` creates a row and `unsubscribe` deletes one, and both return a
future that sends one request whose form names the callback of that row. The future sends
nothing before it is polled, so what a caller does with it is part of the caller.

The request is built after the row was changed, and building it panics if the hub is not a
URI. `Env` is what the code takes from other crates : the base64 engine, the parser that
tells whether a string is a URI, and whether arithmetic is checked for overflow.

`Hub.created_of_subscribe` and `Hub.ok_of_unsubscribe` say what a call that returns has done.
-/

namespace Websub

open Tables Programs Http Base64

/-- What the code takes from other crates and from the build. -/
structure Env where
  engine : Engine
  /-- The string parses as a URI. -/
  isUri : String → Bool
  /-- Arithmetic that overflows panics, instead of wrapping. -/
  overflowChecks : Bool

/-- The form of a request. -/
inductive Form (cs : Charset)
  | subscribe (callback : Uri cs) (topic secret : String)
  | unsubscribe (callback : Uri cs) (topic : String)
deriving DecidableEq

/-- `hub::ResponseFuture` : one request to a hub, for the subscription `id`. -/
structure Task (cs : Charset) where
  id : UInt64
  hub : String
  form : Form cs
deriving DecidableEq

/-- The form subscribes. -/
def Form.isSubscribe {cs : Charset} : Form cs → Bool
  | .subscribe .. => true
  | .unsubscribe .. => false

variable {cs : Charset} (env : Env)

/-- `hub::gen_secret`. -/
def genSecret : Db (Task cs) String := fun w =>
  (.ok (String.ofList (env.engine.encode (w.fills w.filled).toList)),
    { w with filled := w.filled + 1 })

namespace Hub

/-- `hub::send_request`. -/
def sendRequest (id : UInt64) (hub : String) (form : Form cs) : Db (Task cs) (Task cs) :=
  if env.isUri hub then pure ⟨id, hub, form⟩ else Prog.stop .panicked

/-- `hub::create_subscription`. -/
def createSubscription (hub topic : String) : Db (Task cs) (UInt64 × String) := do
  let secret ← genSecret env
  let id ← Websub.createSubscription hub topic secret
  pure (id, secret)

/-- `hub::subscribe`. -/
def subscribe (callback : Uri cs) (hub topic : String) : Db (Task cs) (Task cs) := do
  let p ← createSubscription env hub topic
  match makeCallback env.engine callback p.1 with
  | none => Prog.stop .panicked
  | some callback => sendRequest env p.1 hub (.subscribe callback topic p.2)

/-- `hub::unsubscribe`. -/
def unsubscribe (callback : Uri cs) (id : UInt64) (hub topic : String) :
    Db (Task cs) (Task cs) := do
  let _ ← deleteSubscriptions id
  match makeCallback env.engine callback id with
  | none => Prog.stop .panicked
  | some callback => sendRequest env id hub (.unsubscribe callback topic)

end Hub

/-! ## What every call keeps -/

theorem keeps_genSecret : Keeps (genSecret env : Db (Task cs) String) := fun _ =>
  ⟨rfl, rfl, List.prefix_rfl, [], rfl, by simp⟩

namespace Hub

theorem keeps_sendRequest (id : UInt64) (hub : String) (form : Form cs) :
    Keeps (sendRequest env id hub form) := by
  unfold sendRequest
  split
  · exact Keeps.pure _
  · exact Keeps.stop _

theorem keeps_createSubscription (hub topic : String) :
    Keeps (createSubscription env hub topic : Db (Task cs) _) :=
  Keeps.bind (keeps_genSecret env) fun _ =>
    Keeps.bind (Websub.keeps_createSubscription _ _ _) fun _ => Keeps.pure _

theorem keeps_subscribe (callback : Uri cs) (hub topic : String) :
    Keeps (subscribe env callback hub topic) := by
  refine Keeps.bind (keeps_createSubscription env hub topic) fun p => ?_
  cases hc : makeCallback env.engine callback p.1 with
  | none => exact Keeps.stop _
  | some c => exact keeps_sendRequest env _ _ _

theorem keeps_unsubscribe (callback : Uri cs) (id : UInt64) (hub topic : String) :
    Keeps (unsubscribe env callback id hub topic) := by
  refine Keeps.bind (keeps_statement _) fun _ => ?_
  cases makeCallback env.engine callback id with
  | none => exact Keeps.stop _
  | some c => exact keeps_sendRequest env _ _ _

end Hub

/-! ## What a call that returns has done -/

/-- The row `⟨id, hub, topic, secret⟩` was added, with an id that was drawn. -/
structure Created {τ : Type} (id : UInt64) (hub topic secret : String) (w w' : World τ) : Prop where
  rows : w'.store.rows = w.store.rows ++ [⟨id.toInt64, hub, topic, secret, none⟩]
  drawn : id ∈ w.rng
  rng : w'.rng <:+ w.rng
  spawned : w'.spawned = w.spawned
  nextTick : w'.nextTick = w.nextTick

/-- The loop returns an id that was free, with its row added. -/
theorem created_of_insertLoop {τ : Type} {hub topic secret : String} :
    ∀ {rng : List UInt64} {w w' : World τ} {id : UInt64}, rng <:+ w.rng →
      insertLoop hub topic secret rng w = (.ok id, w') → Created id hub topic secret w w'
  | [], w, w', id, _, h => by cases (Prod.mk.inj h).1
  | x :: rng, w, w', id, hr, h => by
    have hr' : rng <:+ w.rng := (List.suffix_cons x rng).trans hr
    unfold insertLoop at h
    split at h
    · cases (Prod.mk.inj h).1
    · split at h
      · rename_i t ht
        obtain ⟨hid, rfl⟩ := Prod.mk.inj h
        obtain rfl := Except.ok.inj hid
        exact ⟨Table.rows_of_insert ht, hr.subset List.mem_cons_self, hr', rfl, rfl⟩
      · have ih := created_of_insertLoop (w := (w.drawn rng).observe) List.suffix_rfl h
        exact ⟨ih.rows, hr'.subset ih.drawn, ih.rng.trans hr', ih.spawned, ih.nextTick⟩

theorem created_of_createSubscription {τ : Type} {hub topic secret : String} {w w' : World τ}
    {id : UInt64} (h : createSubscription hub topic secret w = (.ok id, w')) :
    Created id hub topic secret w w' := by
  obtain ⟨v, hv, rfl⟩ := ok_of_transaction h
  have hl := created_of_insertLoop (w := w.opened) List.suffix_rfl hv
  exact ⟨hl.rows, hl.drawn, hl.rng, hl.spawned, hl.nextTick⟩

namespace Hub

variable {env}

theorem ok_of_sendRequest {id : UInt64} {hub : String} {form : Form cs} {w w' : World (Task cs)}
    {task : Task cs} (h : sendRequest env id hub form w = (.ok task, w')) :
    task = ⟨id, hub, form⟩ ∧ w' = w ∧ env.isUri hub = true := by
  unfold sendRequest at h
  split at h
  · rename_i hu
    obtain ⟨ht, rfl⟩ := Prod.mk.inj h
    exact ⟨(Except.ok.inj ht).symm, rfl, hu⟩
  · cases (Prod.mk.inj h).1

theorem created_of_createSubscription {hub topic : String} {w w' : World (Task cs)}
    {p : UInt64 × String} (h : createSubscription env hub topic w = (.ok p, w')) :
    Created p.1 hub topic p.2 w w' := by
  obtain ⟨secret, u, hu, h⟩ := Prog.ok_of_bind h
  obtain ⟨id, v, hv, h⟩ := Prog.ok_of_bind h
  obtain ⟨hp, rfl⟩ := Prod.mk.inj h
  obtain rfl := Except.ok.inj hp
  obtain ⟨-, rfl⟩ := Prod.mk.inj hu
  have hc := Websub.created_of_createSubscription hv
  exact ⟨hc.rows, hc.drawn, hc.rng, hc.spawned, hc.nextTick⟩

/-- `subscribe` adds an inactive row, and its request is for that row. -/
theorem created_of_subscribe {callback : Uri cs} {hub topic : String} {w w' : World (Task cs)}
    {task : Task cs} (h : subscribe env callback hub topic w = (.ok task, w')) :
    ∃ id secret c, makeCallback env.engine callback id = some c ∧
      task = ⟨id, hub, .subscribe c topic secret⟩ ∧ Created id hub topic secret w w' := by
  obtain ⟨p, v, hv, h⟩ := Prog.ok_of_bind h
  have hcreated := created_of_createSubscription hv
  cases hc : makeCallback env.engine callback p.1 with
  | none =>
    simp only [hc] at h
    cases (Prod.mk.inj h).1
  | some c =>
    simp only [hc] at h
    obtain ⟨rfl, rfl, -⟩ := ok_of_sendRequest h
    exact ⟨p.1, p.2, c, hc, rfl, hcreated⟩

/-- `unsubscribe` deletes the row, and its request is for that row. -/
theorem ok_of_unsubscribe {callback : Uri cs} {id : UInt64} {hub topic : String}
    {w w' : World (Task cs)} {task : Task cs}
    (h : unsubscribe env callback id hub topic w = (.ok task, w')) :
    ∃ c, makeCallback env.engine callback id = some c ∧
      task = ⟨id, hub, .unsubscribe c topic⟩ ∧
      w'.store = (w.store.deleteSubscriptions id).2 ∧ w'.spawned = w.spawned ∧
      w'.nextTick = w.nextTick := by
  obtain ⟨_, v, hv, h⟩ := Prog.ok_of_bind h
  obtain ⟨-, rfl⟩ := ok_of_statement hv
  cases hc : makeCallback env.engine callback id with
  | none =>
    simp only [hc] at h
    cases (Prod.mk.inj h).1
  | some c =>
    simp only [hc] at h
    obtain ⟨rfl, rfl, -⟩ := ok_of_sendRequest h
    exact ⟨c, rfl, rfl, rfl, rfl, rfl⟩

/-- A creation that does not return has changed nothing. -/
theorem store_of_createSubscription_error {hub topic : String} {w v : World (Task cs)} {e : Stop}
    (h : createSubscription env hub topic w = (.error e, v)) : v.store = w.store := by
  rcases Prog.error_of_bind h with h | ⟨secret, u, hu, h⟩
  · cases (Prod.mk.inj h).1
  · obtain ⟨-, rfl⟩ := Prod.mk.inj hu
    rcases Prog.error_of_bind h with h | ⟨id, x, -, h⟩
    · have hs := store_of_transaction_error
        (fun w => keeps_insertLoop hub topic secret w.rng w) h
      exact hs
    · cases (Prod.mk.inj h).1

/-- However `subscribe` ends, it has changed nothing or added its row. -/
theorem store_of_subscribe (env : Env) (callback : Uri cs) (hub topic : String)
    (w : World (Task cs)) :
    (subscribe env callback hub topic w).2.store = w.store ∨
      ∃ id secret, Created id hub topic secret w (subscribe env callback hub topic w).2 := by
  cases h : createSubscription env hub topic w with
  | mk r v =>
    cases r with
    | error e =>
      unfold subscribe
      rw [Prog.bind_of_error h]
      exact .inl (store_of_createSubscription_error h)
    | ok p =>
      have hcreated := created_of_createSubscription h
      unfold subscribe
      rw [Prog.bind_of_ok h]
      refine .inr ⟨p.1, p.2, ?_⟩
      cases hc : makeCallback env.engine callback p.1 with
      | none => exact hcreated
      | some c =>
        simp only [sendRequest]
        split <;> exact hcreated

/-- However `unsubscribe` ends, it has changed nothing or deleted its row. -/
theorem store_of_unsubscribe (env : Env) (callback : Uri cs) (id : UInt64) (hub topic : String)
    (w : World (Task cs)) :
    (unsubscribe env callback id hub topic w).2.store = w.store ∨
      (unsubscribe env callback id hub topic w).2.store = (w.store.deleteSubscriptions id).2 := by
  cases h : (deleteSubscriptions id : Db (Task cs) Bool) w with
  | mk r v =>
    cases r with
    | error e =>
      unfold unsubscribe
      rw [Prog.bind_of_error h]
      exact .inl (store_of_statement_error h)
    | ok b =>
      have hstore : v.store = (w.store.deleteSubscriptions id).2 := by
        rw [(ok_of_statement h).2]
        rfl
      unfold unsubscribe
      rw [Prog.bind_of_ok h]
      refine .inr ?_
      cases hc : makeCallback env.engine callback id with
      | none => exact hstore
      | some c =>
        simp only [sendRequest]
        split <;> exact hstore

end Hub

end Websub
