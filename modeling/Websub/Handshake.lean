import Websub.Request

/-!
# From a request to the hub and back

What is done together by `hub::make_callback`, the form that carries the callback to a hub, the
requests of the hub to the callback, and `Service::call`, which finds the subscription again.

A hub that has read a form asks at the callback whether it is meant (`Form.verificationUri`), and
delivers updates to it. Such requests carry the path of the callback and not its origin.
Their tail decodes to what is left of the id (`reducedId`), which is the id exactly if it
survives its encoding (`reaches_iff`).

`handshake` is what the service answers to the hub that was sent a form, and does. `delivered` is
what becomes of content that the hub signs.
-/

namespace Websub

open Base64 Programs Http Streams Transducers

variable {cs : Charset} {hmac : Hmac} {B : Type}

/-! ## The requests of a hub -/

/-- What a hub that was sent a form asks for. -/
def Form.verification (challenge : String) (leaseSeconds : UInt64) : Form cs → Verify
  | .subscribe _ topic _ => .subscribe topic challenge leaseSeconds
  | .unsubscribe _ topic => .unsubscribe topic challenge

/-- Where it asks. -/
def Form.verificationUri (challenge : String) (leaseSeconds : UInt64) (form : Form cs) :
    Option (Uri cs) :=
  form.callback.addQuery (form.verification challenge leaseSeconds).toQuery

/-- The value of the header for a signature, in lower case digits. -/
def Signature.format (sig : Signature) : List UInt8 :=
  sig.method.name.toUTF8.toList ++ 0x3D :: encodeHex lowerDigits sig.code.toList

/-- What a service does about a verification of the subscription `id`. -/
def Service.verifyFor (env : CallEnv) (service : Service cs) (now id : UInt64) (v : Verify) :
    Prog (Serving cs hmac B) CallError Response := do
  getConn
  let answer ← onConn (service.verifyIntent env.toEnv now id (some v))
  pure answer.response

/-- The result of a call, for that of `verify_intent`. -/
def Answer.result : Except Stop Answer → Except CallError Response
  | .ok answer => .ok answer.response
  | .error e => .error (.connection e)

/-- The id that a request to a URI is for. -/
def Service.idOf (env : Env) (service : Service cs) (uri : Uri cs) : Option UInt64 :=
  (callbackTail service.callback uri).bind (CallbackId.decode env.engine)

/-- What a callback tells of an id. -/
def reducedId (id : UInt64) : UInt64 :=
  fromLeBytes (CallbackId.strip (toLeBytes id))

/-- The callback of the service leads to it : it has a path, and that is rooted and has no
query. -/
structure Service.Addressable (service : Service cs) : Prop where
  hasPath : service.callback.hasPath = true
  query : service.callback.query = none
  rooted : Rooted service.callback

/-- What a query is written with is let through in queries. -/
def Encodes (cs : Charset) : Prop :=
  ('&' :: '=' :: Urlencoded.alphabet).all cs.query = true

/-! ## Where they arrive -/

/-- The ids that survive their encoding are those that a callback tells in full. -/
theorem reducedId_eq_iff {id : UInt64} : reducedId id = id ↔ CallbackId.Survives id := by
  rw [← CallbackId.decode_encode_eq_some_iff urlSafeNoPad, CallbackId.decode_encode,
    Option.some_inj, reducedId]

section Routing

variable {E : Engine} {env : CallEnv} {service : Service cs} {id : UInt64} {callback : Uri cs}

/-- The callback of an id has text, no query, and the path of the service with the encoded
id. -/
theorem callback_spec (hs : service.Addressable)
    (hc : makeCallback E service.callback id = some callback) :
    callback.pathAndQuery.data ≠ [] ∧ callback.query = none ∧
      service.callback.path ++ CallbackId.encode E (toLeBytes id) = callback.path := by
  obtain ⟨u, hu, -, -, hdata⟩ := makeCallback_spec E hs.hasPath id
  obtain rfl := Option.some_inj.1 (hc.symm.trans hu)
  have hencode := question_not_mem_encode cs E (toLeBytes id)
  obtain ⟨htail, hquery⟩ := (recognised_iff hs.hasPath hencode hdata).2 ⟨hs.query, hs.rooted⟩
  refine ⟨?_, hquery, callbackTail_eq_some_iff.1 htail⟩
  rw [hdata]
  exact List.append_ne_nil_of_left_ne_nil (display_ne_nil _) _

/-- A request with the path of the callback is for what is left of the id. -/
theorem call_of_callback (hs : service.Addressable)
    (hc : makeCallback env.engine service.callback id = some callback) {req : Request cs B}
    (hpath : req.uri.path = callback.path) (now : UInt64) (s : Serving cs hmac B) :
    service.call env now req s = service.callFor env now req (reducedId id) s := by
  obtain ⟨-, -, htail⟩ := callback_spec hs hc
  exact call_of_decode (htail.trans hpath.symm) (CallbackId.decode_encode env.engine id)

/-- The id of a request is that of its path. -/
theorem idOf_congr {uri uri' : Uri cs} (h : uri.path = uri'.path) :
    service.idOf env.toEnv uri = service.idOf env.toEnv uri' := by
  unfold Service.idOf callbackTail
  rw [h]

/-- A request is served for the id that its path names. -/
theorem call_of_idOf_eq_some {req : Request cs B}
    (h : service.idOf env.toEnv req.uri = some id) (now : UInt64) (s : Serving cs hmac B) :
    service.call env now req s = service.callFor env now req id s := by
  obtain ⟨tail, htail, hdecode⟩ := Option.bind_eq_some_iff.1 h
  exact call_of_decode (callbackTail_eq_some_iff.1 htail) hdecode

/-- A request for no id only gets an answer. -/
theorem call_of_idOf_eq_none {req : Request cs B} (h : service.idOf env.toEnv req.uri = none)
    (now : UInt64) (s : Serving cs hmac B) : ∃ status, status ≠ .ok ∧
      service.call env now req s = (.ok (emptyResponse status), s) := by
  unfold Service.call
  cases htail : callbackTail service.callback req.uri with
  | none => exact ⟨.notFound, by simp, rfl⟩
  | some tail =>
    unfold Service.idOf at h
    rw [htail, Option.bind_some] at h
    simp only [h]
    exact ⟨_, by split <;> simp, rfl⟩

/-- A hub asks at the callback of a form, where that has no query of its own. -/
theorem Form.exists_verificationUri (hmac : Hmac) (B : Type) {form : Form cs}
    (henv : env.verify = Verify.fromStr) (hcs : Encodes cs)
    (hne : form.callback.pathAndQuery.data ≠ []) (hquery : form.callback.query = none)
    (service : Service cs) (challenge : String) (leaseSeconds : UInt64) :
    ∃ uri, form.verificationUri challenge leaseSeconds = some uri ∧
      uri.path = form.callback.path ∧ ∀ id now headers (body : B) (s : Serving cs hmac B),
        service.callFor env now ⟨uri, headers, body⟩ id s =
          service.verifyFor env now id (form.verification challenge leaseSeconds) s := by
  have hall : (form.verification challenge leaseSeconds).toQuery.all cs.query = true :=
    List.all_eq_true.2 fun c hc =>
      List.all_eq_true.1 hcs c (Urlencoded.serialize_subset _ hc)
  obtain ⟨uri, huri, hpath, hq⟩ := Uri.exists_addQuery hne hquery hall
  refine ⟨uri, huri, hpath, fun id now headers body s => ?_⟩
  rw [Service.callFor_of_query service now _ henv hq]
  unfold Service.verifyQuery Service.verifyFor
  rw [Verify.fromStr_toQuery]

/-- A hub asks at the callback of a form it was sent, and the service is asked about what is
left of the id. -/
theorem call_verificationUri (hmac : Hmac) (B : Type) (henv : env.verify = Verify.fromStr)
    (hcs : Encodes cs) (hs : service.Addressable) {form : Form cs}
    (hc : makeCallback env.engine service.callback id = some form.callback) (challenge : String)
    (leaseSeconds : UInt64) :
    ∃ uri, form.verificationUri challenge leaseSeconds = some uri ∧
      ∀ now headers (body : B) (s : Serving cs hmac B),
        service.call env now ⟨uri, headers, body⟩ s =
          service.verifyFor env now (reducedId id) (form.verification challenge leaseSeconds)
            s := by
  obtain ⟨hne, hquery, -⟩ := callback_spec hs hc
  obtain ⟨uri, huri, hpath, hcall⟩ :=
    form.exists_verificationUri hmac B henv hcs hne hquery service challenge leaseSeconds
  refine ⟨uri, huri, fun now headers body s => ?_⟩
  rw [call_of_callback hs hc hpath]
  exact hcall _ now headers body s

end Routing

/-! ## Which subscription they are for -/

section Reaches

variable {env : CallEnv} {service : Service cs}

/-- One inactive row. -/
def lonely (id : UInt64) (topic : String) : Subscriptions :=
  ⟨[⟨id.toInt64, "", topic, "", none⟩], List.nodup_singleton _⟩

/-- A service with a store, where nothing fails. -/
def serving (hmac : Hmac) (B : Type) (store : Subscriptions) : Serving cs hmac B :=
  ⟨.start store (fun _ => none) [] (fun _ => Vector.replicate 24 0) noTick, none, true, []⟩

theorem mem_lonely {id : UInt64} {topic : String} {r : Row} :
    r ∈ lonely id topic ↔ r = ⟨id.toInt64, "", topic, "", none⟩ :=
  List.mem_singleton

theorem toInt64_ne {id id' : UInt64} (h : id ≠ id') : id.toInt64 ≠ id'.toInt64 :=
  fun h' => h (by simpa using congrArg Int64.toUInt64 h')

/-- The response tells the answer. -/
theorem Answer.result_injective : Function.Injective Answer.result := by
  intro a b h
  match a, b with
  | .error _, .error _ => simpa [Answer.result] using h
  | .error _, .ok _ | .ok _, .error _ => cases h
  | .ok (.challenge _), .ok (.challenge _) => simpa [Answer.result, Answer.response] using h
  | .ok .notFound, .ok .notFound => rfl
  | .ok (.challenge _), .ok .notFound | .ok .notFound, .ok (.challenge _) =>
    simp [Answer.result, Answer.response, emptyResponse] at h

theorem onConn_of_error {α : Type} {x : Db (Task cs) α} {s : Serving cs hmac B} {e : Stop}
    {world : World (Task cs)} (h : x s.world = (.error e, world)) :
    onConn x s = (.error (.connection e), { s with world }) := by
  unfold onConn
  rw [h]

/-- The response to a verification. -/
theorem onConn_answer (x : Db (Task cs) Answer) (s : Serving cs hmac B) :
    (onConn x >>= fun answer => pure answer.response) s =
      (Answer.result (x s.world).1, { s with world := (x s.world).2 }) := by
  cases h : x s.world with
  | mk result world =>
    cases result with
    | ok answer => rw [Prog.bind_of_ok (onConn_of_ok h), Prog.pure_apply, Answer.result]
    | error e => rw [Prog.bind_of_error (onConn_of_error h), Answer.result]

/-- A verification, where there is a connection. -/
theorem verifyFor_spec (env : CallEnv) (service : Service cs) (now id : UInt64) (v : Verify)
    {s : Serving cs hmac B} (hpool : s.poolError = none) :
    (service.verifyFor env now id v s).1 =
        Answer.result (service.verifyIntent env.toEnv now id (some v) s.world).1 ∧
      (service.verifyFor env now id v s).2.world =
        (service.verifyIntent env.toEnv now id (some v) s.world).2 := by
  unfold Service.verifyFor
  rw [Prog.bind_of_ok (getConn_of_none hpool), onConn_answer]
  exact ⟨rfl, rfl⟩

/-- A verification of a row that is there is never answered with 404. -/
theorem verifySubscription_ne_notFound (env : Env) (service : Service cs) (now id : UInt64)
    (hub topic challenge : String) (leaseSeconds : UInt64) (w : World (Task cs)) :
    (service.verifySubscription env now id hub topic challenge leaseSeconds w).1 ≠
      .ok .notFound := by
  intro h
  unfold Service.verifySubscription at h
  cases ht : service.refreshTime env (expiryOf now leaseSeconds).toUInt64 with
  | none =>
    rw [ht] at h
    cases h
  | some tick =>
    rw [ht] at h
    obtain ⟨-, w₁, -, h⟩ := Prog.ok_of_bind (Prod.ext h rfl)
    obtain ⟨-, w₂, -, h⟩ := Prog.ok_of_bind h
    cases Except.ok.inj (Prod.mk.inj h).1

/-- Of the verifications of two ids, with one row, the one of the row is answered in another
way. -/
theorem verifyIntent_lonely (env : Env) (service : Service cs) (now : UInt64) {id id' : UInt64}
    (hne : id ≠ id') (v : Verify) :
    ∃ topic, ∀ {w : World (Task cs)}, (∀ n, w.faults n = none) → w.store = lonely id topic →
      (service.verifyIntent env now id (some v) w).1 ≠
        (service.verifyIntent env now id' (some v) w).1 := by
  have hnone {topic : String} : ∀ r ∈ lonely id topic, r.id ≠ id'.toInt64 := by
    intro r hr
    rw [mem_lonely.1 hr]
    exact toInt64_ne hne
  cases v with
  | subscribe topic challenge leaseSeconds =>
    refine ⟨topic, fun {w} hf hw => ?_⟩
    have hread (id : UInt64) : (getHubOfInactiveSubscription id topic : Db (Task cs) _) w =
        (.ok (w.store.getHubOfInactiveSubscription id topic), w.queried) := query_of_none _ (hf _)
    have hfound : w.store.getHubOfInactiveSubscription id topic = some "" :=
      getHubOfInactiveSubscription_eq_some_iff.2
        ⟨_, hw ▸ mem_lonely.2 rfl, rfl, rfl, rfl, rfl⟩
    have hother : w.store.getHubOfInactiveSubscription id' topic = none := by
      refine Option.eq_none_iff_forall_ne_some.2 fun hub hhub => ?_
      obtain ⟨r, hr, hid, -⟩ := getHubOfInactiveSubscription_eq_some_iff.1 hhub
      exact hnone r (hw ▸ hr) hid
    rw [Service.verifyIntent, Service.verifyIntent, Prog.bind_of_ok (hread id),
      Prog.bind_of_ok (hread id'), hfound, hother]
    exact verifySubscription_ne_notFound env service now id "" topic challenge leaseSeconds _
  | unsubscribe topic challenge =>
    refine ⟨topic, fun {w} hf hw => ?_⟩
    have hread (id : UInt64) : (subscriptionExists id topic : Db (Task cs) _) w =
        (.ok (w.store.subscriptionExists id topic), w.queried) := query_of_none _ (hf _)
    have hfound : w.store.subscriptionExists id topic = true :=
      subscriptionExists_iff.2 ⟨_, hw ▸ mem_lonely.2 rfl, rfl, rfl⟩
    have hother : w.store.subscriptionExists id' topic = false := by
      refine Bool.eq_false_iff.2 fun h => ?_
      obtain ⟨r, hr, hid, -⟩ := subscriptionExists_iff.1 h
      exact hnone r (hw ▸ hr) hid
    rw [Service.verifyIntent, Service.verifyIntent, Prog.bind_of_ok (hread id),
      Prog.bind_of_ok (hread id'), hfound, hother]
    simp

/-- So a service that does the same about both is asked about one id. -/
theorem verifyFor_injective {now id id' : UInt64} {v : Verify}
    (h : ∀ s : Serving cs hmac B, service.verifyFor env now id v s =
      service.verifyFor env now id' v s) : id = id' := by
  by_contra hne
  obtain ⟨topic, hanswers⟩ := verifyIntent_lonely env.toEnv service now hne v
  have hs := congrArg Prod.fst (h (serving hmac B (lonely id topic)))
  rw [(verifyFor_spec _ _ _ _ _ rfl).1, (verifyFor_spec _ _ _ _ _ rfl).1] at hs
  exact hanswers (fun _ => rfl) rfl (Answer.result_injective hs)

/-- A hub that was sent a form made for an id asks about that subscription exactly if the id
survives its encoding. -/
theorem reaches_iff (henv : env.verify = Verify.fromStr) (hcs : Encodes cs)
    (hs : service.Addressable) {form : Form cs} {id : UInt64}
    (hc : makeCallback env.engine service.callback id = some form.callback)
    (challenge : String) (leaseSeconds now : UInt64) (headers : Headers) (body : B) :
    ∃ uri, form.verificationUri challenge leaseSeconds = some uri ∧
      ((∀ s : Serving cs hmac B, service.call env now ⟨uri, headers, body⟩ s =
        service.verifyFor env now id (form.verification challenge leaseSeconds) s) ↔
          CallbackId.Survives id) := by
  obtain ⟨uri, huri, hcall⟩ :=
    call_verificationUri hmac B henv hcs hs hc challenge leaseSeconds
  refine ⟨uri, huri, ?_⟩
  rw [← reducedId_eq_iff]
  constructor
  · intro h
    exact verifyFor_injective fun s => (hcall now headers body s).symm.trans (h s)
  · intro h s
    rw [hcall, h]

end Reaches

/-- The environment of the examples, which reads the queries of hubs. -/
def hubCallEnv : CallEnv :=
  { exampleCallEnv with verify := Verify.fromStr }

/-- The callback of the subscription 1. -/
def firstCallback : Uri .http :=
  exampleUri "/AQAAAAAAAA".toList (by decide)

/-- The callback of the example is rooted, without a query. -/
theorem addressable_exampleService : exampleService.Addressable :=
  ⟨by decide, by decide, .inr (.inl (by decide))⟩

/-- The callback of the subscription 1, whose id survives. -/
theorem reaches_iff_example :
    ∃ uri, (Form.subscribe firstCallback "topic" "secret").verificationUri "1" 50 = some uri ∧
      ((∀ s : Serving .http exampleHmac String,
        exampleService.call hubCallEnv 100 ⟨uri, [], ""⟩ s =
          exampleService.verifyFor hubCallEnv 100 1 (.subscribe "topic" "1" 50) s) ↔
            CallbackId.Survives 1) :=
  have hc : makeCallback hubCallEnv.engine exampleService.callback 1 =
      some (Form.subscribe firstCallback "topic" "secret").callback := by decide
  reaches_iff rfl (by unfold Encodes; decide) addressable_exampleService hc "1" 50 100 [] ""

/-! ## The handshake -/

/-- The task is one that the service made. -/
inductive Service.Makes (env : Env) (service : Service cs) (task : Task cs) : Prop
  | subscribe {hub topic : String} {w w' : World (Task cs)}
      (h : service.subscribe env hub topic w = (.ok task, w'))
  | unsubscribe {id : UInt64} {hub topic : String} {w w' : World (Task cs)}
      (h : service.unsubscribe env id hub topic w = (.ok task, w'))

/-- A task's form has the callback of its id. -/
theorem Service.Makes.callback {env : Env} {service : Service cs} {task : Task cs}
    (h : service.Makes env task) :
    makeCallback env.engine service.callback task.id = some task.form.callback := by
  cases h with
  | subscribe h =>
    obtain ⟨id, secret, c, hc, rfl, -⟩ := Hub.created_of_subscribe h
    exact hc
  | unsubscribe h =>
    obtain ⟨c, hc, rfl, -⟩ := Hub.ok_of_unsubscribe h
    exact hc

/-- For every task that the service made for an id that survives its encoding : the hub reads the
form that was sent, and what it asks for is answered, where nothing fails, as `verify_intent` of
the task's subscription answers it. -/
theorem handshake {env : CallEnv} {service : Service cs} (henv : env.verify = Verify.fromStr)
    (hcs : Encodes cs) (hs : service.Addressable) {task : Task cs}
    (hmade : service.Makes env.toEnv task) (hsurvives : CallbackId.Survives task.id)
    {parseUri : List Char → Option (Uri cs)}
    (hparse : parseUri task.form.callback.display = some task.form.callback)
    (challenge : String) (leaseSeconds : UInt64) :
    Form.fromBody parseUri task.request.body = some task.form ∧
    ∃ uri, task.form.verificationUri challenge leaseSeconds = some uri ∧
      ∀ (now : UInt64) (headers : Headers) (body : B) (s : Serving cs hmac B),
        s.poolError = none → (∀ n, s.world.faults n = none) →
        (∀ r ∈ s.world.store, env.isUri r.hub = true) →
        (task.form.isSubscribe = true →
          service.renewalMargin.toNat ≤ min (now.toNat + leaseSeconds.toNat) (2 ^ 63 - 1)) →
        ∃ answer, (service.call env now ⟨uri, headers, body⟩ s).1 = Answer.result answer ∧
          Verified env.toEnv service now task.id
            (some (task.form.verification challenge leaseSeconds)) s.world answer
            (service.call env now ⟨uri, headers, body⟩ s).2.world := by
  refine ⟨Form.fromBody_toBody hparse, ?_⟩
  obtain ⟨uri, huri, hcall⟩ :=
    call_verificationUri hmac B henv hcs hs hmade.callback challenge leaseSeconds
  refine ⟨uri, huri, fun now headers body s hpool hf hhubs hmargin => ?_⟩
  obtain ⟨hresult, hworld⟩ := verifyFor_spec env service now task.id
    (task.form.verification challenge leaseSeconds) hpool
  rw [hcall, reducedId_eq_iff.2 hsurvives, hresult, hworld]
  refine ⟨_, rfl, ?_⟩
  cases hform : task.form with
  | subscribe c topic secret =>
    refine verified_subscribe hf hs.hasPath hhubs topic challenge ?_
    rw [UInt64.le_iff_toNat_le, toNat_toUInt64_expiryOf]
    exact hmargin (by rw [hform]; rfl)
  | unsubscribe c topic => exact verified_unsubscribe hf topic challenge

/-- The task to subscribe to `topic`, and a parser that reads its callback. -/
theorem handshake_example :
    let task : Task .http := ⟨1, "http://example.com/hub",
      .subscribe firstCallback "topic" "AAAAAAAAAAAAAAAAAAAAAAAAAAAAAAAA"⟩
    let parseUri : List Char → Option (Uri .http) := fun text =>
      if text = firstCallback.display then some firstCallback else none
    Form.fromBody parseUri task.request.body = some task.form ∧
    ∃ uri, task.form.verificationUri "1" 50 = some uri ∧
      ∀ (now : UInt64) (headers : Headers) (body : String)
        (s : Serving .http exampleHmac String),
        s.poolError = none → (∀ n, s.world.faults n = none) →
        (∀ r ∈ s.world.store, hubCallEnv.isUri r.hub = true) →
        (task.form.isSubscribe = true →
          exampleService.renewalMargin.toNat ≤
            min (now.toNat + (50 : UInt64).toNat) (2 ^ 63 - 1)) →
        ∃ answer, (exampleService.call hubCallEnv now ⟨uri, headers, body⟩ s).1 =
            Answer.result answer ∧
          Verified hubCallEnv.toEnv exampleService now task.id
            (some (task.form.verification "1" 50)) s.world answer
            (exampleService.call hubCallEnv now ⟨uri, headers, body⟩ s).2.world :=
  have hmade : exampleService.subscribe hubCallEnv.toEnv "http://example.com/hub" "topic"
      (.start ⟨[], List.nodup_nil⟩ (fun _ => none) [1] (fun _ => Vector.replicate 24 0) noTick) =
      (.ok ⟨1, "http://example.com/hub",
        .subscribe firstCallback "topic" "AAAAAAAAAAAAAAAAAAAAAAAAAAAAAAAA"⟩, _) :=
    Prod.ext (by decide +kernel) rfl
  handshake rfl (by unfold Encodes; decide) addressable_exampleService (.subscribe hmade)
    (by decide) (if_pos rfl) "1" 50

/-! ## Content -/

/-- A method that is enabled is known by its name. -/
theorem Method.ofName_of_enabled {features : Features} {m : Method}
    (h : m.enabled features = true) : Method.ofName features m.name.toUTF8.toList = some m := by
  obtain ⟨sha1, sha2⟩ := features
  cases sha1 <;> cases sha2 <;> cases m <;> first | decide +kernel | cases h

/-- A signature of a method that is known is read as it is written. -/
theorem Signature.parse_format {features : Features} {sig : Signature}
    (h : sig.method.enabled features = true) : Signature.parse features sig.format = .ok sig := by
  have hhex := decodeHex_eq_some_iff.2 (hexOf_encodeHex (.inl rfl) sig.code.toList)
  unfold Signature.format
  rw [Signature.parse_append features sig.method.notMem_name, Method.ofName_of_enabled h]
  simp only [hhex]

/-- Signatures of enabled methods are read as they are written, in their order. -/
theorem parsedValues_format {features : Features} {sigs : List Signature}
    (h : ∀ sig ∈ sigs, sig.method.enabled features = true) :
    parsedValues features (sigs.map Signature.format) = sigs := by
  unfold parsedValues
  rw [List.filterMap_map]
  refine (List.filterMap_congr fun sig hsig => ?_).trans List.filterMap_some
  rw [Function.comp_apply, Signature.parse_format (h sig hsig), Except.toOption]

/-- Content that is sent to the callback of an id that survives its encoding is for that id. -/
theorem names_originForm {env : CallEnv} {service : Service cs} (hs : service.Addressable)
    {id : UInt64} {callback : Uri cs}
    (hc : makeCallback env.engine service.callback id = some callback)
    (hsurvives : CallbackId.Survives id) (headers : Headers) (body : B) :
    Names env service ⟨callback.originForm, headers, body⟩ id := by
  obtain ⟨hne, hquery, htail⟩ := callback_spec hs hc
  refine ⟨hquery, _, htail.trans (Uri.path_originForm hne).symm, ?_⟩
  exact (CallbackId.decode_encode_eq_some_iff env.engine id).2 hsurvives

/-- What a request with signed content gets, and what is enqueued for it. -/
theorem call_signed {env : CallEnv} {service : Service cs} (hs : service.Addressable) {id : UInt64}
    {callback : Uri cs} (hc : makeCallback env.engine service.callback id = some callback)
    (hsurvives : CallbackId.Survives id) {s : Serving cs hmac B} (hpool : s.poolError = none)
    (hf : ∀ n, s.world.faults n = none) (halive : s.alive = true) {r : Row}
    (hr : r ∈ s.world.store) (hid : r.id = id.toInt64) {headers : Headers}
    {sigs : List Signature} (hheaders : headers.getAll hubSignature = sigs.map Signature.format)
    (henabled : ∀ sig ∈ sigs, sig.method.enabled env.features = true) {sig : Signature}
    (hsig : LastStrongest sigs sig) (body : B) (now : UInt64) :
    service.call env now ⟨callback.originForm, headers, body⟩ s = (.ok {}, { s with
      world := s.world.queried
      rx := s.rx ++ [⟨r.topic, headers, .new hmac body sig r.secret.toUTF8.toList⟩] }) := by
  have hselect : selectSignature env.features (headers.getAll hubSignature) = some sig := by
    rw [selectSignature_eq_foldl, hheaders, parsedValues_format henabled,
      foldl_prefer_eq_some_iff]
    exact hsig
  have hcols : s.world.store.getTopic id = some (r.topic, r.secret) :=
    getTopic_eq_some_iff.2 ⟨r, hr, hid, rfl⟩
  rw [call_of_names (names_originForm hs hc hsurvives headers body) hpool hf]
  simp only [hselect, hcols, startSend]
  rw [Prog.bind_of_ok (Prog.modify_apply _ _), if_pos halive]
  rfl

/-- Polling content up to its end. -/
theorem polls_new (hmac : Hmac) (sig : Signature) (secret : List UInt8) {β E : Type}
    {poll : B → PollData β E × B} (buf : Buf β) {body : B} {rs : List (BodyResult β E)}
    (hbody : Yields poll body rs) : ∃ last,
      ((Content.polls poll buf).run (.new hmac body sig secret)
          (List.replicate (rs.length + 1) ())).1 = rs.map (BodyResult.poll .body) ++ [last] ∧
        (last = .ready none ↔
          (hmac sig.method).code secret (rs.flatMap (BodyResult.bytes buf)) = sig.code) := by
  refine ⟨_, (polls_of_yields buf (Verifier.holds_verifyWith sig secret) hbody).1, ?_⟩
  unfold Signature.verdict
  rw [List.nil_append]
  split
  · rename_i hcode
    exact iff_of_true rfl hcode
  · rename_i hcode
    exact iff_of_false (by simp) hcode

/-- Content that is sent to the callback of a row, signed : one update of the topic of the row is
enqueued, and its content yields the body, and then the end exactly if the last of the strongest
signatures is the code of it under the secret of the row. -/
theorem delivered {env : CallEnv} {service : Service cs} (hs : service.Addressable) {id : UInt64}
    {callback : Uri cs} (hc : makeCallback env.engine service.callback id = some callback)
    (hsurvives : CallbackId.Survives id) {s : Serving cs hmac B} (hpool : s.poolError = none)
    (hf : ∀ n, s.world.faults n = none) (halive : s.alive = true) {r : Row}
    (hr : r ∈ s.world.store) (hid : r.id = id.toInt64) {headers : Headers}
    {sigs : List Signature} (hheaders : headers.getAll hubSignature = sigs.map Signature.format)
    (henabled : ∀ sig ∈ sigs, sig.method.enabled env.features = true) {sig : Signature}
    (hsig : LastStrongest sigs sig) {β E : Type} {poll : B → PollData β E × B} (buf : Buf β)
    {body : B} {rs : List (BodyResult β E)} (hbody : Yields poll body rs) (now : UInt64) :
    ∃ content last s', service.call env now ⟨callback.originForm, headers, body⟩ s = (.ok {}, s') ∧
      s'.rx = s.rx ++ [⟨r.topic, headers, content⟩] ∧ Untouched s.world s'.world ∧
      ((Content.polls poll buf).run content (List.replicate (rs.length + 1) ())).1 =
        rs.map (BodyResult.poll .body) ++ [last] ∧
      (last = .ready none ↔ (hmac sig.method).code r.secret.toUTF8.toList
        (rs.flatMap (BodyResult.bytes buf)) = sig.code) := by
  obtain ⟨last, hpolls, hlast⟩ := polls_new hmac sig r.secret.toUTF8.toList buf hbody
  have hcall := call_signed hs hc hsurvives hpool hf halive hr hid hheaders henabled hsig body now
  exact ⟨_, last, _, hcall, rfl, ⟨rfl, rfl, rfl⟩, hpolls, hlast⟩

/-- A body of two buffers for the subscription 1, with a signature that is wrong. -/
theorem delivered_example :
    let rs : List (BodyResult (List (List UInt8)) ℕ) := [.data [[1, 2], [3]], .data [[4]]]
    let sig : Signature := ⟨.sha256, .replicate 32 0⟩
    let s : Serving .http exampleHmac (List (BodyResult (List (List UInt8)) ℕ)) :=
      serving exampleHmac _ (exampleStore "topic" none)
    ∃ content last s', exampleService.call hubCallEnv 100
        ⟨firstCallback.originForm, [(hubSignature, sig.format)], rs⟩ s = (.ok {}, s') ∧
      s'.rx = s.rx ++ [⟨"topic", [(hubSignature, sig.format)], content⟩] ∧
      Untouched s.world s'.world ∧
      ((Content.polls pollList segments).run content (List.replicate (rs.length + 1) ())).1 =
        rs.map (BodyResult.poll .body) ++ [last] ∧
      (last = .ready none ↔ (exampleHmac sig.method).code "secret".toUTF8.toList
        (rs.flatMap (BodyResult.bytes segments)) = sig.code) := by
  intro rs sig s
  have hc : makeCallback hubCallEnv.engine exampleService.callback 1 = some firstCallback := by
    decide
  have hr : { exampleRow with expiresAt := none } ∈ s.world.store := List.mem_cons_self
  have hheaders : Headers.getAll [(hubSignature, sig.format)] hubSignature =
      [sig].map Signature.format := rfl
  exact delivered addressable_exampleService hc (by decide) (s := s) rfl (fun _ => rfl) rfl hr rfl
    hheaders (List.forall_mem_singleton.2 rfl)
    ⟨[], [], rfl, List.forall_mem_nil _, List.forall_mem_nil _⟩ segments (yields_pollList rs) 100

end Websub
