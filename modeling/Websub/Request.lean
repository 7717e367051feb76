import Websub.Query

/-!
# Forms

`hub::Form` as its derived implementations write and read it, and the request of
`hub::send_request`.

The mode is the tag of the enum, as in a verification. The callback is written as the text of its
URI and read by the parser of the http crate, which is a parameter : that it reads a callback as
it is written is a hypothesis where it is needed. `form_body` says what a hub reads : the form
that was written, from any body that has the same pairs, in any order and among others.
-/

namespace Websub

open Records Programs Http

variable {cs : Charset}

/-! ## The code -/

/-- The callback of a form. -/
def Form.callback : Form cs → Uri cs
  | .subscribe callback _ _ => callback
  | .unsubscribe callback _ => callback

/-- The fields of a variant of `Form`. -/
def Mode.formFields : Mode → List String
  | subscribe => ["hub.callback", "hub.topic", "hub.secret"]
  | unsubscribe => ["hub.callback", "hub.topic"]

namespace Form

/-- `Serialize`. -/
def serialize : Form cs → List (String × String)
  | subscribe callback topic secret =>
    [(Mode.tag, Mode.subscribe.name), ("hub.callback", String.ofList callback.display),
      ("hub.topic", topic), ("hub.secret", secret)]
  | unsubscribe callback topic =>
    [(Mode.tag, Mode.unsubscribe.name), ("hub.callback", String.ofList callback.display),
      ("hub.topic", topic)]

section Deserialize

variable (parseUri : List Char → Option (Uri cs))

/-- The value of a variant, once its fields are read. A field that is not there is an error, as is
a callback that is no URI. -/
def ofFields (fields : String → Option String) : Mode → Option (Form cs)
  | .subscribe => do
    let callback ← fields "hub.callback"
    let callback ← parseUri callback.toList
    let topic ← fields "hub.topic"
    let secret ← fields "hub.secret"
    return .subscribe callback topic secret
  | .unsubscribe => do
    let callback ← fields "hub.callback"
    let callback ← parseUri callback.toList
    let topic ← fields "hub.topic"
    return .unsubscribe callback topic

/-- The enum, with the tag that is its mode. -/
def tagged : Tagged String String Mode (Form cs) where
  tag := Mode.tag
  variant := Mode.ofName
  fields := Mode.formFields
  make mode fields := ofFields parseUri fields mode
  tag_notMem mode := by cases mode <;> decide

/-- `Deserialize`. -/
def deserialize (pairs : List (String × String)) : Option (Form cs) :=
  (tagged parseUri).read pairs

/-- `serde_urlencoded::from_bytes`, of a body as text. -/
def fromBody (body : List Char) : Option (Form cs) :=
  deserialize parseUri (Urlencoded.parse body)

end Deserialize

/-- `serde_urlencoded::to_string`. -/
def toBody (form : Form cs) : List Char :=
  Urlencoded.serialize form.serialize

end Form

/-- `consts::APPLICATION_WWW_FORM_URLENCODED`. -/
def applicationWwwFormUrlencoded : String :=
  "application/x-www-form-urlencoded"

/-- The request of `http::Request::post` that `hub::send_request` sends. -/
structure HubRequest where
  uri : String
  contentType : String
  body : List Char
deriving DecidableEq

/-- The request that the future of a task sends. -/
def Task.request (task : Task cs) : HubRequest :=
  ⟨task.hub, applicationWwwFormUrlencoded, task.form.toBody⟩

/-! ## What a hub reads -/

/-- Why a body is refused. -/
inductive FormRefused (parseUri : List Char → Option (Uri cs)) (pairs : List (String × String)) :
    Prop
  /-- The mode is missing, repeated, or none of the two. -/
  | mode (h : ∀ mode : Mode, values Mode.tag pairs ≠ [mode.name])
  /-- A field of the mode is missing or repeated. -/
  | field {mode : Mode} {key : String} (hmode : values Mode.tag pairs = [mode.name])
      (hkey : key ∈ mode.formFields) (h : (values key pairs).length ≠ 1)
  /-- The callback is no URI. -/
  | callback {mode : Mode} {callback : String} (hmode : values Mode.tag pairs = [mode.name])
      (hcallback : callback ∈ values "hub.callback" pairs) (h : parseUri callback.toList = none)

/-- The key is not the mode, and none of the fields of the mode. -/
def FormUnused (pairs : List (String × String)) (key : String) : Prop :=
  key ≠ Mode.tag ∧ ∀ mode : Mode, mode.name ∈ values Mode.tag pairs → key ∉ mode.formFields

section FromBody

variable {parseUri : List Char → Option (Uri cs)} {pairs : List (String × String)}

namespace Form

/-- The pairs of a form are read as it, if its callback is. -/
theorem deserialize_serialize {form : Form cs}
    (h : parseUri form.callback.display = some form.callback) :
    deserialize parseUri form.serialize = some form := by
  refine (tagged parseUri).read_eq_some_iff.2 ?_
  cases form with
  | subscribe callback topic secret =>
    replace h : parseUri callback.display = some callback := h
    refine ⟨_, .subscribe, ?_, Mode.ofName_eq_some_iff.2 rfl, ?_, ?_⟩
    · simp [serialize, tagged, Mode.tag]
    · simp [serialize, tagged, Mode.formFields, Mode.tag]
    · simp [serialize, tagged, ofFields, firstValues, Mode.formFields, Mode.tag, h]
  | unsubscribe callback topic =>
    replace h : parseUri callback.display = some callback := h
    refine ⟨_, .unsubscribe, ?_, Mode.ofName_eq_some_iff.2 rfl, ?_, ?_⟩
    · simp [serialize, tagged, Mode.tag]
    · simp [serialize, tagged, Mode.formFields, Mode.tag]
    · simp [serialize, tagged, ofFields, firstValues, Mode.formFields, Mode.tag, h]

/-- A hub reads the form that was written, if its parser reads the callback. -/
theorem fromBody_toBody {form : Form cs}
    (h : parseUri form.callback.display = some form.callback) :
    fromBody parseUri form.toBody = some form := by
  unfold fromBody toBody
  rw [Urlencoded.parse_serialize]
  exact deserialize_serialize h

/-- A variant is made exactly of a value of each of its fields, among which the callback is a
URI. -/
theorem ofFields_eq_none_iff {mode : Mode} {fields : String → Option String} :
    ofFields parseUri fields mode = none ↔ (∃ key ∈ mode.formFields, fields key = none) ∨
      ∃ callback, fields "hub.callback" = some callback ∧ parseUri callback.toList = none := by
  cases hcallback : fields "hub.callback" with
  | none => cases mode <;> simp [ofFields, Mode.formFields, hcallback]
  | some callback =>
    cases huri : parseUri callback.toList with
    | none => cases mode <;> simp [ofFields, hcallback, huri]
    | some uri =>
      cases htopic : fields "hub.topic" <;> cases hsecret : fields "hub.secret" <;>
        cases mode <;> simp [ofFields, Mode.formFields, hcallback, huri, htopic, hsecret]

/-- Nothing else is refused. -/
theorem deserialize_eq_none_iff :
    deserialize parseUri pairs = none ↔ FormRefused parseUri pairs := by
  unfold deserialize
  rw [Tagged.read_eq_none_iff]
  have hfirst {mode : Mode} {key : String} (hkey : key ∈ mode.formFields) :
      firstValues mode.formFields pairs key = (values key pairs).head? := if_pos hkey
  have hcallback (mode : Mode) : "hub.callback" ∈ mode.formFields := by cases mode <;> decide
  constructor
  · intro h
    cases h with
    | tag h =>
      refine .mode fun mode hmode => ?_
      cases (h _ hmode).symm.trans (Mode.ofName_eq_some_iff.2 rfl)
    | repeated htag hvariant hk h =>
      rw [Mode.ofName_eq_some_iff.1 hvariant] at htag
      exact .field htag hk h.ne'
    | @make name mode htag hvariant h =>
      rw [Mode.ofName_eq_some_iff.1 hvariant] at htag
      rcases ofFields_eq_none_iff.1 h with ⟨key, hkey, hnone⟩ | ⟨callback, hsome, hnone⟩
      · refine .field htag hkey fun hone => ?_
        have hnone := (hfirst hkey).symm.trans hnone
        rw [List.head?_eq_none_iff] at hnone
        simp [hnone] at hone
      · have hsome := (hfirst (hcallback mode)).symm.trans hsome
        exact .callback htag (List.mem_of_head? hsome) hnone
  · intro h
    cases h with
    | mode h =>
      refine .tag fun name hname => Option.eq_none_iff_forall_ne_some.2 fun mode hmode => ?_
      exact h mode (by rw [← Mode.ofName_eq_some_iff.1 hmode]; exact hname)
    | @field mode key hmode hkey h =>
      have hvariant : Mode.ofName mode.name = some mode := Mode.ofName_eq_some_iff.2 rfl
      rcases Nat.lt_or_gt_of_ne h with h | h
      · refine .make hmode hvariant (ofFields_eq_none_iff.2 (.inl ⟨key, hkey, ?_⟩))
        refine (hfirst hkey).trans ?_
        rw [List.eq_nil_of_length_eq_zero (Nat.lt_one_iff.1 h), List.head?_nil]
      · exact .repeated hmode hvariant hkey h
    | @callback mode callback hmode hmem h =>
      have hvariant : Mode.ofName mode.name = some mode := Mode.ofName_eq_some_iff.2 rfl
      by_cases hlength : (values "hub.callback" pairs).length ≤ 1
      · refine .make hmode hvariant (ofFields_eq_none_iff.2 (.inr ⟨callback, ?_, h⟩))
        refine (hfirst (hcallback mode)).trans ?_
        obtain ⟨value, hvalue⟩ := List.length_eq_one_iff.1
          (Nat.le_antisymm hlength (List.length_pos_of_mem hmem))
        rw [hvalue] at hmem ⊢
        rw [List.mem_singleton.1 hmem, List.head?_cons]
      · exact .repeated hmode hvariant (hcallback mode) (not_le.1 hlength)

end Form

end FromBody

/-- For every form : its body is read as it by every parser that reads its callback. For every
body : the order of its pairs does not matter, a pair with a key that the mode does not use does
not matter wherever it is inserted, and the body is refused exactly if the mode or one of its
fields is missing or repeated, the mode is none of the two, or the callback is no URI. -/
theorem form_body (parseUri : List Char → Option (Uri cs)) :
    (∀ form : Form cs, parseUri form.callback.display = some form.callback →
      Form.fromBody parseUri form.toBody = some form) ∧
    (∀ b b', (Urlencoded.parse b).Perm (Urlencoded.parse b') →
      Form.fromBody parseUri b = Form.fromBody parseUri b') ∧
    (∀ b b' left right key value, Urlencoded.parse b = left ++ right →
      Urlencoded.parse b' = left ++ (key, value) :: right → FormUnused (Urlencoded.parse b) key →
        Form.fromBody parseUri b' = Form.fromBody parseUri b) ∧
    ∀ b, Form.fromBody parseUri b = none ↔ FormRefused parseUri (Urlencoded.parse b) := by
  refine ⟨fun form => Form.fromBody_toBody, fun b b' h => Tagged.read_of_perm _ h, ?_,
    fun b => Form.deserialize_eq_none_iff⟩
  intro b b' left right key value hb hb' h
  unfold Form.fromBody Form.deserialize
  rw [hb] at h ⊢
  rw [hb']
  refine Tagged.read_insert _ h.1 (fun name hname mode hmode => ?_) value
  exact h.2 mode (by rwa [← Mode.ofName_eq_some_iff.1 hmode])

end Websub
