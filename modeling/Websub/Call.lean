import Websub.Content
import Websub.Verification

/-!
# Requests to the service

`Service::call`. A request is for the subscription that the tail of its path names. With a
query it is a verification of intent, and without one it is the content of an update, if one
of its `X-Hub-Signature` values parses.

`Serving` is what a call reads and changes besides the connection : the pool, and the channel
of updates. Of several signatures the last one of the strongest method is taken (`selected`).
`Attributed` says which requests enqueue an update, and what is in it (`attributed`). `alike`
compares a tail that is no id with the id of no row.
-/

namespace Websub

open Tables Programs Http

variable {cs : Charset} {hmac : Hmac} {B : Type}

/-! ## The code -/

/-- `http::HeaderMap` : the names, in lower case, with the values, in order. -/
abbrev Headers := List (String × List UInt8)

/-- `HeaderMap::get_all`. -/
def Headers.getAll (headers : Headers) (name : String) : List (List UInt8) :=
  (headers.filter fun h => h.1 = name).map Prod.snd

/-- `consts::HUB_SIGNATURE`. -/
def hubSignature : String :=
  "x-hub-signature"

/-- `http::Request`, with a body `B`. -/
structure Request (cs : Charset) (B : Type) where
  uri : Uri cs
  headers : Headers
  body : B

/-- The values of `http::StatusCode` in the answers. -/
inductive StatusCode
  /-- 200. -/
  | ok
  /-- 404. -/
  | notFound
  /-- 410. -/
  | gone
deriving DecidableEq

/-- `http::Response`, by default 200 with no body. -/
structure Response where
  status : StatusCode := .ok
  body : String := ""
deriving DecidableEq

/-- `util::empty_response`. -/
def emptyResponse (status : StatusCode) : Response :=
  { status }

/-- The response of `verify_intent`. -/
def Answer.response : Answer → Response
  | challenge body => { body }
  | notFound => emptyResponse .notFound

/-- `Update`. -/
structure Update (hmac : Hmac) (B : Type) where
  topic : String
  headers : Headers
  content : Content hmac B

/-- What stops a call. -/
inductive CallError
  /-- The error of the pool. -/
  | pool (code : ℕ)
  /-- What stops a call on the connection. -/
  | connection (e : Stop)
deriving DecidableEq

/-- What a call reads and changes. -/
structure Serving (cs : Charset) (hmac : Hmac) (B : Type) where
  world : World (Task cs)
  /-- The error of the pool, if it has no connection. -/
  poolError : Option ℕ
  /-- The receiver of the channel is there. -/
  alive : Bool
  /-- The channel, the oldest update first. -/
  rx : List (Update hmac B)

/-- What `Service::call` takes from other crates and from the build. -/
structure CallEnv extends Env where
  features : Features
  /-- `serde_urlencoded::from_str` of a `hub::Verify`. -/
  verify : List Char → Option Verify

/-- `Pool::get`. -/
def getConn : Prog (Serving cs hmac B) CallError Unit := fun s =>
  match s.poolError with
  | some code => (.error (.pool code), s)
  | none => (.ok (), s)

/-- A call on the connection. -/
def onConn {α : Type} (x : Db (Task cs) α) : Prog (Serving cs hmac B) CallError α := fun s =>
  match x s.world with
  | (.ok a, world) => (.ok a, { s with world })
  | (.error e, world) => (.error (.connection e), { s with world })

/-- `UnboundedSender::start_send`, whose error is dropped. -/
def startSend (update : Update hmac B) : Prog (Serving cs hmac B) CallError Unit :=
  Prog.modify fun s => if s.alive then { s with rx := s.rx ++ [update] } else s

/-- What a round of the loop over the signatures does with one that parses. -/
def prefer (signature : Option Signature) (sig : Signature) : Option Signature :=
  match signature with
  | some prev => if sig.isPreferableTo prev then some sig else some prev
  | none => some sig

/-- The loop over the `X-Hub-Signature` values. -/
def selectSignature (features : Features) (values : List (List UInt8)) : Option Signature :=
  values.foldl (fun signature value =>
    match Signature.parse features value with
    | .ok sig => prefer signature sig
    | .error _ => signature) none

/-- `Service::call`, once the id of the subscription is decoded. -/
def Service.callFor (env : CallEnv) (service : Service cs) (now : UInt64) (req : Request cs B)
    (id : UInt64) : Prog (Serving cs hmac B) CallError Response := do
  getConn
  match req.uri.query with
  | some q => do
    let answer ← onConn (service.verifyIntent env.toEnv now id (env.verify q))
    pure answer.response
  | none =>
    match selectSignature env.features (req.headers.getAll hubSignature) with
    | none => pure {}
    | some signature => do
      let cols ← onConn (getTopic id)
      match cols with
      | none => pure (emptyResponse .gone)
      | some (topic, secret) => do
        startSend ⟨topic, req.headers, .new hmac req.body signature secret.toUTF8.toList⟩
        pure {}

/-- `Service::call`. -/
def Service.call (env : CallEnv) (service : Service cs) (now : UInt64) (req : Request cs B) :
    Prog (Serving cs hmac B) CallError Response :=
  match callbackTail service.callback req.uri with
  | none => pure (emptyResponse .notFound)
  | some tail =>
    match CallbackId.decode env.engine tail with
    | none =>
      pure (emptyResponse (if '/' ∈ tail ∨ req.uri.query.isSome then .notFound else .gone))
    | some id => service.callFor env now req id

/-! ## The signature -/

/-- The signature is the parse of one of the values. -/
def Parsed (features : Features) (headers : Headers) (sig : Signature) : Prop :=
  ∃ value ∈ headers.getAll hubSignature, Signature.parse features value = .ok sig

/-- The values that parse, in order. -/
def parsedValues (features : Features) (values : List (List UInt8)) : List Signature :=
  values.filterMap fun value => (Signature.parse features value).toOption

/-- The signatures of a request are those of its values that parse. -/
theorem mem_parsedValues_iff {features : Features} {values : List (List UInt8)}
    {sig : Signature} : sig ∈ parsedValues features values ↔
      ∃ value ∈ values, Signature.parse features value = .ok sig := by
  unfold parsedValues
  rw [List.mem_filterMap]
  refine exists_congr fun value => and_congr_right fun _ => ?_
  cases Signature.parse features value <;> simp [Except.toOption]

/-- The loop over the values is one over those that parse. -/
theorem selectSignature_eq_foldl (features : Features) (values : List (List UInt8)) :
    selectSignature features values = (parsedValues features values).foldl prefer none := by
  unfold selectSignature parsedValues
  rw [List.foldl_filterMap]
  congr 1
  ext signature value : 2
  cases Signature.parse features value <;> rfl

/-- Of two methods, the one with the longer code is preferable. -/
theorem isPreferableTo_iff {sig other : Signature} :
    sig.isPreferableTo other ↔ other.method.size ≤ sig.method.size := by
  have hsize : ∀ m m' : Method, m.discriminant ≤ m'.discriminant ↔ m.size ≤ m'.size := by
    intro m m'
    cases m <;> cases m' <;> decide
  unfold Signature.isPreferableTo
  rw [decide_eq_true_iff, hsize]

/-- A signature replaces one that is no stronger. -/
theorem prefer_of_le {signature : Option Signature} {sig : Signature}
    (h : ∀ prev, signature = some prev → prev.method.size ≤ sig.method.size) :
    prefer signature sig = some sig := by
  cases signature with
  | none => rfl
  | some prev => exact if_pos (isPreferableTo_iff.2 (h prev rfl))

/-- A signature does not replace a stronger one. -/
theorem prefer_of_lt {prev sig : Signature} (h : sig.method.size < prev.method.size) :
    prefer (some prev) sig = some prev :=
  if_neg (mt isPreferableTo_iff.1 (not_le.2 h))

/-- The last of the signatures with the strongest method, which is the one with the longest
code. -/
def LastStrongest (sigs : List Signature) (sig : Signature) : Prop :=
  ∃ before after, sigs = before ++ sig :: after ∧
    (∀ s ∈ before, s.method.size ≤ sig.method.size) ∧
    ∀ s ∈ after, s.method.size < sig.method.size

/-- The last of the strongest signatures is one of them. -/
theorem LastStrongest.mem {sigs : List Signature} {sig : Signature} (h : LastStrongest sigs sig) :
    sig ∈ sigs := by
  obtain ⟨before, after, rfl, -, -⟩ := h
  exact List.mem_append_right _ List.mem_cons_self

/-- No signature is stronger than the last of the strongest. -/
theorem LastStrongest.le {sigs : List Signature} {sig s : Signature} (h : LastStrongest sigs sig)
    (hs : s ∈ sigs) : s.method.size ≤ sig.method.size := by
  obtain ⟨before, after, rfl, hbefore, hafter⟩ := h
  rw [List.mem_append, List.mem_cons] at hs
  rcases hs with hs | rfl | hs
  · exact hbefore s hs
  · exact le_rfl
  · exact (hafter s hs).le

/-- Some signature is selected, if there are any. -/
theorem exists_foldl_prefer {sigs : List Signature} (h : sigs ≠ []) :
    ∃ sig, sigs.foldl prefer none = some sig := by
  induction sigs using List.reverseRecOn with
  | nil => exact absurd rfl h
  | append_singleton sigs last ih =>
    rw [List.foldl_append]
    cases sigs.foldl prefer none with
    | none => exact ⟨last, rfl⟩
    | some prev => exact ⟨_, (apply_ite some _ _ _).symm⟩

/-- The loop selects the last signature with the strongest method. -/
theorem lastStrongest_of_foldl {sigs : List Signature} {sig : Signature}
    (h : sigs.foldl prefer none = some sig) : LastStrongest sigs sig := by
  induction sigs using List.reverseRecOn generalizing sig with
  | nil => cases h
  | append_singleton sigs last ih =>
    rw [List.foldl_append] at h
    replace h : prefer (sigs.foldl prefer none) last = some sig := h
    by_cases hle : ∀ prev, sigs.foldl prefer none = some prev →
        prev.method.size ≤ last.method.size
    · rw [prefer_of_le hle] at h
      obtain rfl := Option.some_inj.1 h
      refine ⟨sigs, [], rfl, fun s hs => ?_, List.forall_mem_nil _⟩
      obtain ⟨prev, hprev⟩ := exists_foldl_prefer (List.ne_nil_of_mem hs)
      exact ((ih hprev).le hs).trans (hle prev hprev)
    · push Not at hle
      obtain ⟨prev, hprev, hlt⟩ := hle
      rw [hprev, prefer_of_lt hlt] at h
      obtain rfl := Option.some_inj.1 h
      obtain ⟨before, after, rfl, hbefore, hafter⟩ := ih hprev
      refine ⟨before, after ++ [last], by simp, hbefore, ?_⟩
      rw [List.forall_mem_append, List.forall_mem_singleton]
      exact ⟨hafter, hlt⟩

/-- The loop over the signatures keeps the last of the strongest. -/
theorem foldl_prefer_eq_some_iff {sigs : List Signature} {sig : Signature} :
    sigs.foldl prefer none = some sig ↔ LastStrongest sigs sig := by
  refine ⟨lastStrongest_of_foldl, fun h => ?_⟩
  obtain ⟨before, after, rfl, hbefore, hafter⟩ := h
  have hsig : prefer (before.foldl prefer none) sig = some sig :=
    prefer_of_le fun prev hprev => hbefore prev (lastStrongest_of_foldl hprev).mem
  rw [List.foldl_append, List.foldl_cons, hsig]
  clear hbefore hsig
  induction after with
  | nil => rfl
  | cons s after ih =>
    obtain ⟨hs, hafter⟩ := List.forall_mem_cons.1 hafter
    rw [List.foldl_cons, prefer_of_lt hs]
    exact ih hafter

theorem foldl_prefer_eq_none_iff {sigs : List Signature} :
    sigs.foldl prefer none = none ↔ sigs = [] := by
  refine ⟨fun h => ?_, fun h => by rw [h, List.foldl_nil]⟩
  by_contra hne
  obtain ⟨sig, hsig⟩ := exists_foldl_prefer hne
  cases h.symm.trans hsig

/-- The loop selects a signature that parses, as soon as there is one. -/
theorem selectSignature_spec (features : Features) (values : List (List UInt8)) :
    (∀ sig, selectSignature features values = some sig →
      ∃ value ∈ values, Signature.parse features value = .ok sig) ∧
    (selectSignature features values = none →
      ∀ value ∈ values, ∀ sig, Signature.parse features value ≠ .ok sig) := by
  refine ⟨fun sig h => ?_, fun h value hvalue sig hparse => ?_⟩
  · rw [selectSignature_eq_foldl] at h
    exact mem_parsedValues_iff.1 (lastStrongest_of_foldl h).mem
  · have hmem := mem_parsedValues_iff.2 ⟨value, hvalue, hparse⟩
    rw [selectSignature_eq_foldl, foldl_prefer_eq_none_iff] at h
    rw [h] at hmem
    cases hmem

/-- A signature is selected exactly if one parses. -/
theorem exists_selectSignature {features : Features} {headers : Headers} {sig : Signature}
    (h : Parsed features headers sig) : ∃ sig',
      selectSignature features (headers.getAll hubSignature) = some sig' ∧
        Parsed features headers sig' := by
  obtain ⟨hsome, hnone⟩ := selectSignature_spec features (headers.getAll hubSignature)
  obtain ⟨value, hvalue, hparse⟩ := h
  cases hs : selectSignature features (headers.getAll hubSignature) with
  | none => exact absurd hparse (hnone hs value hvalue sig)
  | some sig' => exact ⟨sig', rfl, hsome sig' hs⟩

/-- The strongest method does not depend on the order. -/
theorem LastStrongest.method_eq {sigs sigs' : List Signature} {sig sig' : Signature}
    (h : LastStrongest sigs sig) (h' : LastStrongest sigs' sig') (hperm : sigs.Perm sigs') :
    sig.method = sig'.method := by
  have hinj : ∀ m m' : Method, m.size = m'.size → m = m' := by
    intro m m'
    cases m <;> cases m' <;> decide
  exact hinj _ _ (le_antisymm (h'.le (hperm.mem_iff.1 h.mem)) (h.le (hperm.mem_iff.2 h'.mem)))

/-- For every list of values : a signature is selected exactly if one parses, namely the last
of those with the strongest method, values that do not parse make no difference, and the order
of the values makes none to the method. -/
theorem selected (features : Features) (values : List (List UInt8)) :
    (selectSignature features values = none ↔
      ∀ value ∈ values, ∀ sig, Signature.parse features value ≠ .ok sig) ∧
    (∀ sig, selectSignature features values = some sig ↔
      LastStrongest (parsedValues features values) sig) ∧
    (∀ before value after, values = before ++ value :: after →
      (∀ sig, Signature.parse features value ≠ .ok sig) →
        selectSignature features values = selectSignature features (before ++ after)) ∧
    ∀ values', values.Perm values' →
      (selectSignature features values).map Signature.method =
        (selectSignature features values').map Signature.method := by
  refine ⟨?_, fun sig => ?_, fun before value after hvalues hparse => ?_, fun values' hperm => ?_⟩
  · refine ⟨(selectSignature_spec features values).2, fun h => ?_⟩
    rw [selectSignature_eq_foldl, foldl_prefer_eq_none_iff, List.eq_nil_iff_forall_not_mem]
    intro sig hsig
    obtain ⟨value, hvalue, hparse⟩ := mem_parsedValues_iff.1 hsig
    exact h value hvalue sig hparse
  · rw [selectSignature_eq_foldl, foldl_prefer_eq_some_iff]
  · rw [hvalues, selectSignature_eq_foldl, selectSignature_eq_foldl]
    have hskip : parsedValues features (value :: after) = parsedValues features after := by
      refine List.filterMap_cons_none ?_
      cases hp : Signature.parse features value with
      | error e => rfl
      | ok sig => exact absurd hp (hparse sig)
    unfold parsedValues at hskip ⊢
    rw [List.filterMap_append, List.filterMap_append, hskip]
  · have hperm' : (parsedValues features values).Perm (parsedValues features values') :=
      hperm.filterMap _
    rw [selectSignature_eq_foldl, selectSignature_eq_foldl]
    cases h : (parsedValues features values).foldl prefer none with
    | none =>
      rw [foldl_prefer_eq_none_iff.1 h] at hperm'
      rw [hperm'.symm.eq_nil]
      rfl
    | some sig =>
      have hsig := lastStrongest_of_foldl h
      obtain ⟨sig', h'⟩ :=
        exists_foldl_prefer (List.ne_nil_of_mem (hperm'.mem_iff.1 hsig.mem))
      rw [h']
      exact congrArg some (hsig.method_eq (lastStrongest_of_foldl h') hperm')

/-! ## What a call does -/

/-- The request is for the content of the subscription `id` : it has no query, and its path
is that of the callback with a tail that decodes to the id. -/
def Names (env : CallEnv) (service : Service cs) (req : Request cs B) (id : UInt64) : Prop :=
  req.uri.query = none ∧ ∃ tail, service.callback.path ++ tail = req.uri.path ∧
    CallbackId.decode env.engine tail = some id

/-- The tail is what the path has after that of the callback. -/
theorem callbackTail_eq_some_iff {callback uri : Uri cs} {tail : List Char} :
    callbackTail callback uri = some tail ↔ callback.path ++ tail = uri.path :=
  List.isPrefixOf?_eq_some_iff_append_eq

/-- The look-up of content is by the id alone. -/
theorem getTopic_eq_some_iff {t : Subscriptions} {id : UInt64} {cols : String × String} :
    t.getTopic id = some cols ↔ ∃ r ∈ t, r.id = id.toInt64 ∧ (r.topic, r.secret) = cols := by
  have hkey : ∀ r : Row, decide (r.id = id.toInt64) = true → r.id = id.toInt64 :=
    fun r h => of_decide_eq_true h
  unfold Subscriptions.getTopic
  rw [Option.map_eq_some_iff]
  refine exists_congr fun r => ?_
  rw [Table.head?_select_eq_some_iff hkey, decide_eq_true_iff, and_assoc]

/-- The look-up of content finds nothing where no row has the id. -/
theorem getTopic_eq_none_iff {t : Subscriptions} {id : UInt64} :
    t.getTopic id = none ↔ ∀ r ∈ t, r.id ≠ id.toInt64 := by
  constructor
  · intro h r hr hid
    have hsome := getTopic_eq_some_iff.2 ⟨r, hr, hid, rfl⟩
    rw [h] at hsome
    cases hsome
  · intro h
    cases hg : t.getTopic id with
    | none => rfl
    | some cols =>
      obtain ⟨r, hr, hid, -⟩ := getTopic_eq_some_iff.1 hg
      exact absurd hid (h r hr)

theorem getConn_of_none {s : Serving cs hmac B} (h : s.poolError = none) :
    getConn s = (.ok (), s) := by
  unfold getConn
  rw [h]

theorem getConn_of_some {s : Serving cs hmac B} {code : ℕ} (h : s.poolError = some code) :
    getConn s = (.error (.pool code), s) := by
  unfold getConn
  rw [h]

theorem onConn_of_ok {α : Type} {x : Db (Task cs) α} {s : Serving cs hmac B} {a : α}
    {world : World (Task cs)} (h : x s.world = (.ok a, world)) :
    onConn x s = (.ok a, { s with world }) := by
  unfold onConn
  rw [h]

/-- What returns on the connection has returned. -/
theorem ok_of_onConn {α : Type} {x : Db (Task cs) α} {s s' : Serving cs hmac B} {a : α}
    (h : onConn x s = (.ok a, s')) : ∃ world, x s.world = (.ok a, world) := by
  unfold onConn at h
  split at h
  · rename_i world hx
    obtain rfl := Except.ok.inj (Prod.mk.inj h).1
    exact ⟨world, hx⟩
  · cases (Prod.mk.inj h).1

/-- A call on the connection leaves the channel as it is. -/
theorem rx_onConn {α : Type} (x : Db (Task cs) α) (s : Serving cs hmac B) :
    (onConn x s).2.rx = s.rx := by
  unfold onConn
  split <;> rfl

section Call

variable {env : CallEnv} {service : Service cs} {now : UInt64} {req : Request cs B}
  {s : Serving cs hmac B}

/-- A request whose tail decodes is served for that id. -/
theorem call_of_decode {tail : List Char} {id : UInt64}
    (htail : service.callback.path ++ tail = req.uri.path)
    (hid : CallbackId.decode env.engine tail = some id) :
    service.call env now req s = service.callFor env now req id s := by
  unfold Service.call
  rw [callbackTail_eq_some_iff.2 htail]
  simp only [hid]

/-- A request with a query for an id, once there is a connection. -/
theorem callFor_of_query {q : List Char} (hq : req.uri.query = some q) (id : UInt64)
    (hpool : s.poolError = none) : service.callFor env now req id s =
      (onConn (service.verifyIntent env.toEnv now id (env.verify q)) >>= fun answer =>
        pure answer.response) s := by
  unfold Service.callFor
  rw [Prog.bind_of_ok (getConn_of_none hpool), hq]

/-- A request without a query for an id, once there is a connection. -/
theorem callFor_of_no_query (hq : req.uri.query = none) (id : UInt64)
    (hpool : s.poolError = none) {sig : Signature}
    (hsig : selectSignature env.features (req.headers.getAll hubSignature) = some sig) :
    service.callFor env now req id s =
      (onConn (getTopic id) >>= fun cols =>
        match cols with
        | none => pure (emptyResponse .gone)
        | some (topic, secret) =>
          startSend ⟨topic, req.headers, .new hmac req.body sig secret.toUTF8.toList⟩ >>= fun _ =>
            pure {}) s := by
  unfold Service.callFor
  rw [Prog.bind_of_ok (getConn_of_none hpool), hq]
  simp only [hsig]

/-- A request with a query enqueues nothing. -/
theorem rx_call_of_query {q : List Char} (hq : req.uri.query = some q) :
    (service.call env now req s).2.rx = s.rx := by
  unfold Service.call
  cases callbackTail service.callback req.uri with
  | none => rfl
  | some tail =>
    simp only
    cases CallbackId.decode env.engine tail with
    | none => rfl
    | some id =>
      simp only
      cases hpool : s.poolError with
      | some code => rw [Service.callFor, Prog.bind_of_error (getConn_of_some hpool)]
      | none =>
        have hrx := rx_onConn (service.verifyIntent env.toEnv now id (env.verify q)) s
        rw [callFor_of_query hq id hpool]
        cases hans : onConn (service.verifyIntent env.toEnv now id (env.verify q)) s with
        | mk result s' =>
          rw [hans] at hrx
          cases result with
          | error e => rwa [Prog.bind_of_error hans]
          | ok answer => rwa [Prog.bind_of_ok hans]

/-- A request without a query for no id only gets an answer. -/
theorem call_of_not_names (now : UInt64) (hq : req.uri.query = none)
    (h : ∀ id, ¬Names env service req id) :
    ∃ response, service.call env now req s = (.ok response, s) := by
  unfold Service.call
  cases htail : callbackTail service.callback req.uri with
  | none => exact ⟨_, rfl⟩
  | some tail =>
    simp only
    cases hid : CallbackId.decode env.engine tail with
    | none => exact ⟨_, rfl⟩
    | some id => exact absurd ⟨hq, tail, callbackTail_eq_some_iff.1 htail, hid⟩ (h id)

/-- A request for the content of a subscription, where nothing fails. -/
theorem call_of_names {id : UInt64} (h : Names env service req id) (hpool : s.poolError = none)
    (hf : ∀ n, s.world.faults n = none) :
    service.call env now req s =
      match selectSignature env.features (req.headers.getAll hubSignature) with
      | none => (.ok {}, s)
      | some signature =>
        match s.world.store.getTopic id with
        | none => (.ok (emptyResponse .gone), { s with world := s.world.queried })
        | some (topic, secret) =>
          (startSend ⟨topic, req.headers, .new hmac req.body signature secret.toUTF8.toList⟩ >>=
            fun _ => pure {}) { s with world := s.world.queried } := by
  obtain ⟨hq, tail, htail, hid⟩ := h
  have hcols : onConn (getTopic id) s =
      (.ok (s.world.store.getTopic id), { s with world := s.world.queried }) :=
    onConn_of_ok (query_of_none _ (hf _))
  rw [call_of_decode htail hid]
  cases hsig : selectSignature env.features (req.headers.getAll hubSignature) with
  | none =>
    unfold Service.callFor
    rw [Prog.bind_of_ok (getConn_of_none hpool), hq]
    simp only [hsig]
    rfl
  | some signature =>
    rw [callFor_of_no_query hq id hpool hsig, Prog.bind_of_ok hcols]
    cases s.world.store.getTopic id with
    | none => rfl
    | some cols => rfl

end Call

/-! ## Attribution -/

/-- The update of a request for the content of a row. -/
def updateOf (hmac : Hmac) (req : Request cs B) (r : Row) (sig : Signature) : Update hmac B :=
  ⟨r.topic, req.headers, .new hmac req.body sig r.secret.toUTF8.toList⟩

/-- Which requests enqueue an update, what is in it, and what a request without a query
leaves as it was. -/
structure Attributed (env : CallEnv) (service : Service cs) (req : Request cs B)
    (s : Serving cs hmac B) (result : Except CallError Response) (s' : Serving cs hmac B) :
    Prop where
  enqueues_iff : s'.rx ≠ s.rx ↔ ∃ id, Names env service req id ∧
    (∃ r ∈ s.world.store, r.id = id.toInt64) ∧ ∃ sig, Parsed env.features req.headers sig
  update : ∀ id, Names env service req id → ∀ r ∈ s.world.store, r.id = id.toInt64 →
    (∃ sig, Parsed env.features req.headers sig) →
      ∃ sig, Parsed env.features req.headers sig ∧
        s'.rx = s.rx ++ [updateOf hmac req r sig] ∧ result = .ok {}
  gone : ∀ id, Names env service req id → (∀ r ∈ s.world.store, r.id ≠ id.toInt64) →
    (∃ sig, Parsed env.features req.headers sig) →
      result = .ok (emptyResponse .gone) ∧ s'.rx = s.rx
  untouched : req.uri.query = none → Untouched s.world s'.world

section Attributed

variable {env : CallEnv} {service : Service cs} {now : UInt64} {req : Request cs B}
  {s s' : Serving cs hmac B} {result : Except CallError Response}

/-- A path has one tail, and the tail one id. -/
theorem Names.unique {id id' : UInt64} (h : Names env service req id)
    (h' : Names env service req id') : id = id' := by
  obtain ⟨-, tail, htail, hid⟩ := h
  obtain ⟨-, tail', htail', hid'⟩ := h'
  obtain rfl := List.append_cancel_left (htail.trans htail'.symm)
  exact Option.some_inj.1 (hid.symm.trans hid')

/-- Where no update is expected none is enqueued. -/
theorem attributed_of_rx_eq (hrx : s'.rx = s.rx)
    (hnone : ∀ id sig, Names env service req id → Parsed env.features req.headers sig →
      (∀ r ∈ s.world.store, r.id ≠ id.toInt64) ∧ result = .ok (emptyResponse .gone))
    (hw : req.uri.query = none → Untouched s.world s'.world) :
    Attributed env service req s result s' where
  enqueues_iff := by
    refine iff_of_false (not_not.2 hrx) ?_
    rintro ⟨id, hid, ⟨r, hr, hrid⟩, sig, hsig⟩
    exact (hnone id sig hid hsig).1 r hr hrid
  update id hid r hr hrid hsig := by
    obtain ⟨sig, hsig⟩ := hsig
    exact absurd hrid ((hnone id sig hid hsig).1 r hr)
  gone id hid _ hsig := by
    obtain ⟨sig, hsig⟩ := hsig
    exact ⟨(hnone id sig hid hsig).2, hrx⟩
  untouched := hw

/-- The one update of a request. -/
theorem attributed_of_update {id : UInt64} {r : Row} {sig : Signature}
    (hid : Names env service req id) (hr : r ∈ s.world.store) (hrid : r.id = id.toInt64)
    (hsig : Parsed env.features req.headers sig)
    (hrx : s'.rx = s.rx ++ [updateOf hmac req r sig]) (hw : Untouched s.world s'.world) :
    Attributed env service req s (.ok {}) s' where
  enqueues_iff := by
    refine iff_of_true ?_ ⟨id, hid, ⟨r, hr, hrid⟩, sig, hsig⟩
    rw [hrx]
    simp
  update id' hid' r' hr' hrid' _ := by
    obtain rfl := hid.unique hid'
    obtain rfl := Table.eq_of_key hr hr' (hrid.trans hrid'.symm)
    exact ⟨sig, hsig, hrx, rfl⟩
  gone id' hid' hnone _ := by
    obtain rfl := hid.unique hid'
    exact absurd hrid (hnone r hr)
  untouched _ := hw

end Attributed

/-- Where neither the pool nor a statement fails and the receiver is there : a request
enqueues an update exactly if it is for the content of a subscription that has a row and one
of its signatures parses, then one update, of that row and keyed with one of the signatures. -/
theorem attributed {s : Serving cs hmac B} (env : CallEnv) (service : Service cs) (now : UInt64)
    (req : Request cs B) (hpool : s.poolError = none) (hf : ∀ n, s.world.faults n = none)
    (halive : s.alive = true) :
    Attributed env service req s (service.call env now req s).1
      (service.call env now req s).2 := by
  cases hq : req.uri.query with
  | some q =>
    refine attributed_of_rx_eq (rx_call_of_query hq) (fun id sig hid _ => ?_) fun h => ?_
    · cases hq.symm.trans hid.1
    · cases hq.symm.trans h
  | none =>
    by_cases hid : ∃ id, Names env service req id
    · obtain ⟨id, hid⟩ := hid
      obtain ⟨hsome, hnone⟩ :=
        selectSignature_spec env.features (req.headers.getAll hubSignature)
      rw [call_of_names hid hpool hf]
      cases hs : selectSignature env.features (req.headers.getAll hubSignature) with
      | none =>
        refine attributed_of_rx_eq rfl (fun id sig _ hsig => ?_) fun _ => ⟨rfl, rfl, rfl⟩
        obtain ⟨value, hvalue, hparse⟩ := hsig
        exact absurd hparse (hnone hs value hvalue sig)
      | some sig =>
        cases hcols : s.world.store.getTopic id with
        | none =>
          refine attributed_of_rx_eq rfl (fun id' sig' hid' _ => ?_) fun _ => ⟨rfl, rfl, rfl⟩
          obtain rfl := hid.unique hid'
          exact ⟨getTopic_eq_none_iff.1 hcols, rfl⟩
        | some cols =>
          obtain ⟨r, hr, hrid, rfl⟩ := getTopic_eq_some_iff.1 hcols
          simp only [startSend]
          rw [Prog.bind_of_ok (Prog.modify_apply _ _), if_pos halive]
          exact attributed_of_update hid hr hrid (hsome sig hs) rfl ⟨rfl, rfl, rfl⟩
    · obtain ⟨response, hcall⟩ := call_of_not_names (s := s) now hq (not_exists.1 hid)
      rw [hcall]
      exact attributed_of_rx_eq rfl (fun id _ h _ => absurd ⟨id, h⟩ hid) fun _ => ⟨rfl, rfl, rfl⟩

/-- The environment of the examples, which knows one query. -/
def exampleCallEnv : CallEnv where
  toEnv := exampleEnv
  features := ⟨true, true⟩
  verify q :=
    if q = "hub.mode=unsubscribe&hub.topic=topic&hub.challenge=1".toList then
      some (.unsubscribe "topic" "1")
    else none

/-- An HMAC of zeroes. -/
def exampleSignature : String × List UInt8 :=
  (hubSignature, ("sha1=" ++ String.ofList (.replicate 40 '0')).toUTF8.toList)

/-- Two inactive subscriptions, 1 and 2, and an empty channel. -/
def exampleServing : Serving .http exampleHmac String :=
  ⟨.start (exampleStore "topic" none) (fun _ => none) [] (fun _ => Vector.replicate 24 0) noTick,
    none, true, []⟩

/-- A request with one signature and no body. -/
def exampleRequest (data : List Char) (valid : Valid .http data) : Request .http String :=
  ⟨exampleUri data valid, [exampleSignature], ""⟩

/-- The content of the subscription 1, whose tail is `AQ`. -/
theorem attributed_example :
    Attributed exampleCallEnv exampleService (exampleRequest "/AQ".toList (by decide))
      exampleServing
      (exampleService.call exampleCallEnv 100 (exampleRequest "/AQ".toList (by decide))
        exampleServing).1
      (exampleService.call exampleCallEnv 100 (exampleRequest "/AQ".toList (by decide))
        exampleServing).2 :=
  attributed exampleCallEnv exampleService 100 _ rfl (fun _ => rfl) rfl

/-! ## What a status code tells -/

/-- The request does not verify an unsubscription, and without a query one of its signatures
parses. -/
def Discreet (env : CallEnv) (req : Request cs B) : Prop :=
  match req.uri.query with
  | some q => ∀ topic challenge, env.verify q ≠ some (.unsubscribe topic challenge)
  | none => ∃ sig, Parsed env.features req.headers sig

section Discreet

variable {env : CallEnv} {service : Service cs} {now : UInt64} {req : Request cs B}
  {s : Serving cs hmac B}

/-- The answer to a tail that is no id. -/
theorem call_of_undecodable {tail : List Char}
    (htail : service.callback.path ++ tail = req.uri.path) (hslash : '/' ∉ tail)
    (hid : CallbackId.decode env.engine tail = none) :
    service.call env now req s =
      (.ok (emptyResponse (if req.uri.query.isSome then .notFound else .gone)), s) := by
  unfold Service.call
  rw [callbackTail_eq_some_iff.2 htail]
  simp only [hid, hslash, false_or]
  rfl

/-- A verification for the id of no row is not found, unless it is of an unsubscription. -/
theorem verifyIntent_of_no_row (env : CallEnv) (service : Service cs) (now : UInt64)
    {id : UInt64} {w : World (Task cs)} {q : Option Verify}
    (hrow : ∀ r ∈ w.store, r.id ≠ id.toInt64)
    (hq : ∀ topic challenge, q ≠ some (.unsubscribe topic challenge)) :
    (∀ answer w', service.verifyIntent env.toEnv now id q w = (.ok answer, w') →
      answer = .notFound) ∧
    ((∀ n, w.faults n = none) →
      ∃ w', service.verifyIntent env.toEnv now id q w = (.ok .notFound, w')) := by
  match q with
  | none => exact ⟨fun _ _ h => (Except.ok.inj (Prod.mk.inj h).1).symm, fun _ => ⟨w, rfl⟩⟩
  | some (.unsubscribe topic challenge) => exact absurd rfl (hq topic challenge)
  | some (.subscribe topic challenge leaseSeconds) =>
    have hnone : w.store.getHubOfInactiveSubscription id topic = none := by
      cases hfound : w.store.getHubOfInactiveSubscription id topic with
      | none => rfl
      | some hub =>
        obtain ⟨r, hr, hid, -⟩ := getHubOfInactiveSubscription_eq_some_iff.1 hfound
        exact absurd hid (hrow r hr)
    refine ⟨fun answer w' h => ?_, fun hf => ⟨w.queried, ?_⟩⟩
    · obtain ⟨found, v, hv, h⟩ := Prog.ok_of_bind h
      obtain rfl := (ok_of_statement hv).1.trans hnone
      exact (Except.ok.inj (Prod.mk.inj h).1).symm
    · have hread : (getHubOfInactiveSubscription id topic : Db (Task cs) _) w =
          (.ok (w.store.getHubOfInactiveSubscription id topic), w.queried) :=
        query_of_none _ (hf _)
      rw [Service.verifyIntent, Prog.bind_of_ok hread, hnone]
      rfl

/-- What a call answers to the id of no row. -/
theorem callFor_of_no_row (service : Service cs) (now : UInt64) {id : UInt64}
    (hrow : ∀ r ∈ s.world.store, r.id ≠ id.toInt64)
    (hd : Discreet env req) :
    (∀ response s', service.callFor env now req id s = (.ok response, s') →
      response = emptyResponse (if req.uri.query.isSome then .notFound else .gone)) ∧
    (s.poolError = none → (∀ n, s.world.faults n = none) →
      ∃ s', service.callFor env now req id s =
        (.ok (emptyResponse (if req.uri.query.isSome then .notFound else .gone)), s')) := by
  cases hpool : s.poolError with
  | some code =>
    refine ⟨fun response s' h => ?_, nofun⟩
    unfold Service.callFor at h
    rw [Prog.bind_of_error (getConn_of_some hpool)] at h
    cases (Prod.mk.inj h).1
  | none =>
    unfold Discreet at hd
    cases hq : req.uri.query with
    | some q =>
      simp only [hq] at hd
      obtain ⟨hanswer, hreturns⟩ :=
        verifyIntent_of_no_row env service now hrow hd
      rw [callFor_of_query hq id hpool]
      refine ⟨fun response s' h => ?_, fun _ hf => ?_⟩
      · obtain ⟨answer, u, hu, h⟩ := Prog.ok_of_bind h
        obtain ⟨w', hw'⟩ := ok_of_onConn hu
        obtain rfl := hanswer answer w' hw'
        exact (Except.ok.inj (Prod.mk.inj h).1).symm
      · obtain ⟨w', hw'⟩ := hreturns hf
        exact ⟨_, Prog.bind_of_ok (onConn_of_ok hw') _⟩
    | none =>
      simp only [hq] at hd
      obtain ⟨sig, hsig⟩ := hd
      obtain ⟨sig', hsel, -⟩ := exists_selectSignature hsig
      have htopic := getTopic_eq_none_iff.2 hrow
      rw [callFor_of_no_query hq id hpool hsel]
      refine ⟨fun response s' h => ?_, fun _ hf => ?_⟩
      · obtain ⟨cols, u, hu, h⟩ := Prog.ok_of_bind h
        obtain ⟨w', hw'⟩ := ok_of_onConn hu
        obtain rfl := (ok_of_statement hw').1.trans htopic
        exact (Except.ok.inj (Prod.mk.inj h).1).symm
      · have hread : (getTopic id : Db (Task cs) _) s.world =
            (.ok (s.world.store.getTopic id), s.world.queried) := query_of_none _ (hf _)
        rw [Prog.bind_of_ok (onConn_of_ok hread), htopic]
        exact ⟨_, rfl⟩

end Discreet

/-- For two requests with the same query and the same headers, one for a tail without a slash
that is no id, the other for the id of no row : unless they verify an unsubscription, or have
neither a query nor a signature that parses, they get the same response. -/
theorem alike {env : CallEnv} {service : Service cs} (now : UInt64) {req req' : Request cs B}
    (s : Serving cs hmac B) {tail tail' : List Char} {id : UInt64}
    (hquery : req.uri.query = req'.uri.query) (hheaders : req.headers = req'.headers)
    (htail : service.callback.path ++ tail = req.uri.path) (hslash : '/' ∉ tail)
    (hnone : CallbackId.decode env.engine tail = none)
    (htail' : service.callback.path ++ tail' = req'.uri.path)
    (hid : CallbackId.decode env.engine tail' = some id)
    (hrow : ∀ r ∈ s.world.store, r.id ≠ id.toInt64) (hd : Discreet env req) :
    ∃ response, service.call env now req s = (.ok response, s) ∧
      (∀ response' s', service.call env now req' s = (.ok response', s') →
        response' = response) ∧
      (s.poolError = none → (∀ n, s.world.faults n = none) →
        ∃ s', service.call env now req' s = (.ok response, s')) := by
  have hd' : Discreet env req' := by
    unfold Discreet
    rw [← hquery, ← hheaders]
    exact hd
  obtain ⟨hanswer, hreturns⟩ :=
    callFor_of_no_row service now hrow hd'
  rw [call_of_undecodable htail hslash hnone, call_of_decode htail' hid, hquery]
  exact ⟨_, rfl, hanswer, hreturns⟩

theorem parsed_exampleSignature :
    Signature.parse ⟨true, true⟩ exampleSignature.2 = .ok ⟨.sha1, .replicate 20 0⟩ := by
  decide +kernel

/-- `A` is no id, and `Aw` is the id 3, which has no row. -/
theorem alike_example :
    ∃ response,
      exampleService.call exampleCallEnv 100 (exampleRequest "/A".toList (by decide))
        exampleServing = (.ok response, exampleServing) ∧
      (∀ response' s', exampleService.call exampleCallEnv 100
        (exampleRequest "/Aw".toList (by decide)) exampleServing = (.ok response', s') →
          response' = response) ∧
      (exampleServing.poolError = none → (∀ n, exampleServing.world.faults n = none) →
        ∃ s', exampleService.call exampleCallEnv 100 (exampleRequest "/Aw".toList (by decide))
          exampleServing = (.ok response, s')) :=
  have htail : exampleService.callback.path ++ "A".toList =
      (exampleRequest "/A".toList (by decide)).uri.path := by decide
  have htail' : exampleService.callback.path ++ "Aw".toList =
      (exampleRequest "/Aw".toList (by decide)).uri.path := by decide
  have hid : CallbackId.decode exampleCallEnv.engine "Aw".toList = some 3 := by decide
  alike 100 exampleServing (by decide) rfl htail (by decide) (by decide) htail' hid
    (List.forall_iff_forall_mem.1 (by decide))
    ⟨_, _, List.mem_singleton_self _, parsed_exampleSignature⟩

/-- `A` and `Aw` are answered with different status codes where an unsubscription is
verified, and where there is neither a query nor a signature. -/
theorem not_alike_unsubscribe :
    (exampleService.call exampleCallEnv 100
        (exampleRequest "/A?hub.mode=unsubscribe&hub.topic=topic&hub.challenge=1".toList
          (by decide)) exampleServing).1 = .ok (emptyResponse .notFound) ∧
      (exampleService.call exampleCallEnv 100
        (exampleRequest "/Aw?hub.mode=unsubscribe&hub.topic=topic&hub.challenge=1".toList
          (by decide)) exampleServing).1 = .ok { status := .ok, body := "1" } ∧
      (exampleService.call exampleCallEnv 100
        { exampleRequest "/A".toList (by decide) with headers := [] } exampleServing).1 =
          .ok (emptyResponse .gone) ∧
      (exampleService.call exampleCallEnv 100
        { exampleRequest "/Aw".toList (by decide) with headers := [] } exampleServing).1 =
          .ok (emptyResponse .ok) := by
  decide +kernel

end Websub
