import Websub.CallbackId
import Websub.Lib.Uri

/-!
# Callback URIs

A subscriber server is given a callback URI, `prepare_callback_prefix` makes it end in a
slash, `hub::make_callback` appends the encoded id to it, and `Service::call` strips the
path of the prepared URI from the path of a request to find the id again.

The first two work on path and query as one text, the third on the path alone. They agree
exactly for a callback without a query whose path is rooted (`routesBack_iff`). With a
query the slash and the id end up inside the query, which no step rejects.

`hub::subscribe` and `hub::unsubscribe` are public and append to the URI they are given,
which a `Service` prepares and the commands of the example do not. The callbacks are the
same exactly where preparing changes nothing (`sameCallback_iff`).

A panic of the source is `none`. The parser of the http crate is a parameter
(`Http.Charset`).
-/

namespace Websub

open Base64 Http

variable {cs : Charset}

/-! ## The code -/

/-- `subscriber::prepare_callback_prefix`. -/
def prepareCallbackPrefix (callback : Uri cs) : Option (Uri cs) :=
  match callback.pathAndQuery? with
  | none => none
  | some p =>
    if p.asStr.getLast? = some '/' then some callback
    else
      match PathAndQuery.tryFrom cs (p.asStr ++ ['/']) with
      | none => none
      | some path => Uri.fromParts { callback.intoParts with pathAndQuery := some path }

/-- `hub::make_callback`. -/
def makeCallback (E : Engine) (callback : Uri cs) (id : UInt64) : Option (Uri cs) :=
  match callback.intoParts.pathAndQuery with
  | none => none
  | some p =>
    match PathAndQuery.tryFrom cs (p.display ++ CallbackId.encode E (toLeBytes id)) with
    | none => none
    | some path => Uri.fromParts { callback.intoParts with pathAndQuery := some path }

/-- What `Service::call` takes for the encoded id of a request : the path behind the path
of the service's callback. -/
def callbackTail (callback uri : Uri cs) : Option (List Char) :=
  callback.path.isPrefixOf? uri.path

/-! ## The properties -/

/-- A request to `uri` reaches the content branch of `Service::call` with the encoded id
`e`. -/
def Recognised (callback uri : Uri cs) (e : List Char) : Prop :=
  callbackTail callback uri = some e ∧ uri.query = none

/-- The callback made from the prepared URI is recognised as the id's, and preparing ends
the path in a slash, is idempotent and keeps scheme and authority. -/
def RoutesBack (E : Engine) (callback : Uri cs) (id : UInt64) : Prop :=
  ∃ p u, prepareCallbackPrefix callback = some p ∧ makeCallback E p id = some u ∧
    Recognised p u (CallbackId.encode E (toLeBytes id)) ∧ p.path.getLast? = some '/' ∧
    prepareCallbackPrefix p = some p ∧ p.scheme = callback.scheme ∧
    p.authority = callback.authority

/-- The callback made from the URI itself is written like the one made from the prepared
URI, and is recognised. -/
def SameCallback (E : Engine) (callback : Uri cs) (id : UInt64) : Prop :=
  ∃ p u v, prepareCallbackPrefix callback = some p ∧ makeCallback E callback id = some u ∧
    makeCallback E p id = some v ∧ u.display = v.display ∧
    Recognised p u (CallbackId.encode E (toLeBytes id))

/-- The path is empty, or starts with a slash or an asterisk. -/
def Rooted (callback : Uri cs) : Prop :=
  callback.pathAndQuery.data = [] ∨ callback.pathAndQuery.data.head? = some '/' ∨
    callback.pathAndQuery.data.head? = some '*'

/-- Path and query as one text end in a slash. -/
def EndsWithSlash (callback : Uri cs) : Prop :=
  callback.pathAndQuery.asStr.getLast? = some '/'

/-! ## What the two functions build -/

/-- An encoded id is let through in paths and in queries. -/
theorem encode_anywhere (cs : Charset) (E : Engine) (id : List UInt8) :
    ∀ c ∈ CallbackId.encode E id, cs.path c = true ∧ cs.query c = true := by
  intro c hc
  have hsub : (alphabet.all fun c => unreserved.contains c) = true := by decide
  have hmem := List.all_eq_true.1 hsub c (E.encode_alphabet _ c hc)
  have hcs := List.all_eq_true.1 cs.unreserved c (List.contains_iff_mem.1 hmem)
  exact Bool.and_eq_true_iff.1 hcs

/-- A callback with a path has one for each id : the encoded id is appended to what it displays. -/
theorem makeCallback_spec (E : Engine) {c : Uri cs} (h : c.hasPath = true) (id : UInt64) :
    ∃ u, makeCallback E c id = some u ∧ u.scheme = c.scheme ∧ u.authority = c.authority ∧
      u.pathAndQuery.data = c.pathAndQuery.display ++ CallbackId.encode E (toLeBytes id) := by
  have hv := valid_append c.pathAndQuery.display_valid (encode_anywhere cs E (toLeBytes id))
  obtain ⟨u, hu, hs, ha, hp⟩ := Uri.exists_fromParts h ⟨_, hv⟩
  refine ⟨u, ?_, hs, ha, congrArg PathAndQuery.data hp⟩
  unfold makeCallback Uri.intoParts
  rw [if_pos h]
  simp only [PathAndQuery.tryFrom_of_valid hv]
  unfold Uri.intoParts at hu
  exact hu

/-- Only a callback with a path has one for an id. -/
theorem hasPath_of_makeCallback {E : Engine} {c u : Uri cs} {id : UInt64}
    (h : makeCallback E c id = some u) : c.hasPath = true := by
  by_contra hn
  simp [makeCallback, Uri.intoParts, hn] at h

/-- The text the prepared URI keeps. -/
def preparedData (c : Uri cs) : List Char :=
  if c.pathAndQuery.asStr.getLast? = some '/' then c.pathAndQuery.data
  else c.pathAndQuery.data ++ ['/']

/-- A text that is not seen to end with a slash is the one that was given. -/
theorem asStr_eq_data {p : PathAndQuery cs} (h : p.asStr.getLast? ≠ some '/') :
    p.asStr = p.data ∧ p.data ≠ [] := by
  rw [PathAndQuery.asStr] at h ⊢
  split at h
  · simp at h
  · rename_i hd
    exact ⟨if_neg hd, hd⟩

/-- A callback that ends with a slash is left as it is. -/
theorem prepareCallbackPrefix_of_endsWithSlash {c : Uri cs} (h : c.hasPath = true)
    (hs : EndsWithSlash c) : prepareCallbackPrefix c = some c := by
  unfold prepareCallbackPrefix
  rw [Uri.pathAndQuery?_of_hasPath h]
  exact if_pos hs

/-- A callback with a path is prepared, with its scheme and authority. -/
theorem prepareCallbackPrefix_spec {c : Uri cs} (h : c.hasPath = true) :
    ∃ p, prepareCallbackPrefix c = some p ∧ p.scheme = c.scheme ∧ p.authority = c.authority ∧
      p.pathAndQuery.data = preparedData c := by
  by_cases hs : c.pathAndQuery.asStr.getLast? = some '/'
  · exact ⟨c, prepareCallbackPrefix_of_endsWithSlash h hs, rfl, rfl,
      by rw [preparedData, if_pos hs]⟩
  · have hslash := cs.slash
    rw [Bool.and_eq_true] at hslash
    have hv : Valid cs (c.pathAndQuery.asStr ++ ['/']) :=
      valid_append c.pathAndQuery.asStr_valid (by simpa using hslash)
    obtain ⟨p, hp, hsch, ha, hpq⟩ := Uri.exists_fromParts h ⟨_, hv⟩
    refine ⟨p, ?_, hsch, ha, ?_⟩
    · unfold prepareCallbackPrefix
      rw [Uri.pathAndQuery?_of_hasPath h]
      simp only [hs, if_false, PathAndQuery.tryFrom_of_valid hv]
      exact hp
    · rw [hpq, preparedData, if_neg hs]
      simp only [(asStr_eq_data hs).1]

/-- Preparing gives no path to a callback without one. -/
theorem hasPath_of_prepareCallbackPrefix {c p : Uri cs} (hp : prepareCallbackPrefix c = some p)
    (h : p.hasPath = true) : c.hasPath = true := by
  by_contra hn
  have hd : c.pathAndQuery.data = [] ∧ c.scheme = none := by
    simpa [Uri.hasPath] using hn
  unfold prepareCallbackPrefix at hp
  cases hq : c.pathAndQuery? with
  | none => simp [hq] at hp
  | some q =>
    obtain rfl : c.pathAndQuery = q := by
      rw [Uri.pathAndQuery?, Option.ite_none_right_eq_some, Option.some_inj] at hq
      exact hq.2
    have hs : c.pathAndQuery.asStr.getLast? = some '/' := by simp [PathAndQuery.asStr, hd.1]
    simp only [hq, hs, if_true, Option.some_inj] at hp
    exact hn (hp ▸ h)

/-! ## Preparing keeps query and root -/

section Prepared

variable {c p : Uri cs} (hdata : p.pathAndQuery.data = preparedData c)
include hdata

/-- Preparing adds no query, and takes none away. -/
theorem prepared_query : p.query = none ↔ c.query = none := by
  rw [Uri.query, Uri.query, PathAndQuery.query, PathAndQuery.query, queryPart_eq_none_iff,
    queryPart_eq_none_iff, hdata, preparedData]
  split <;> simp

/-- Preparing neither roots a callback nor uproots one. -/
theorem prepared_rooted : Rooted p ↔ Rooted c := by
  unfold Rooted
  rw [hdata, preparedData]
  split
  · rfl
  · rename_i hs
    obtain ⟨x, xs, hx⟩ := List.exists_cons_of_ne_nil (asStr_eq_data hs).2
    simp [hx]

/-- A prepared callback ends with a slash. -/
theorem prepared_endsWithSlash : EndsWithSlash p := by
  unfold EndsWithSlash PathAndQuery.asStr
  rw [hdata, preparedData]
  split
  · rename_i hs
    unfold PathAndQuery.asStr at hs
    split <;> simp_all
  · simp

theorem prepared_hasPath (hs : p.scheme = c.scheme) (h : c.hasPath = true) :
    p.hasPath = true := by
  rw [Uri.hasPath, Bool.or_eq_true, decide_eq_true_eq] at h ⊢
  rw [hs, hdata, preparedData]
  refine h.imp_left fun hd => ?_
  split
  · exact hd
  · simp

end Prepared

theorem display_ne_nil (p : PathAndQuery cs) : p.display ≠ [] := by
  unfold PathAndQuery.display
  split
  · rename_i h
    rintro hd
    simp [hd] at h
  · simp

/-- What is displayed begins with a slash, or is the asterisk form. -/
theorem display_head (p : PathAndQuery cs) :
    p.display.head? = some '/' ∨ p.display.head? = some '*' := by
  unfold PathAndQuery.display
  split
  · assumption
  · simp

theorem question_mem_display {p : PathAndQuery cs} : '?' ∈ p.display ↔ '?' ∈ p.data := by
  unfold PathAndQuery.display
  split <;> simp

/-- Without a query the path is all of the text. -/
theorem path_of_query_none {u : Uri cs} (h : u.hasPath = true) (hq : u.query = none) :
    u.path = u.pathAndQuery.asStr := by
  unfold Uri.query PathAndQuery.query at hq
  rw [queryPart_eq_none_iff] at hq
  unfold Uri.path
  rw [if_pos h, PathAndQuery.path, pathPart_eq_self hq, PathAndQuery.asStr]

/-- A callback made from `p` is recognised by a service with the callback `p` exactly if
`p` has no query and is rooted. -/
theorem recognised_iff {p u : Uri cs} {e : List Char} (hp : p.hasPath = true) (he : '?' ∉ e)
    (hu : u.pathAndQuery.data = p.pathAndQuery.display ++ e) :
    Recognised p u e ↔ p.query = none ∧ Rooted p := by
  have hne : u.pathAndQuery.data ≠ [] := by
    rw [hu]
    simp [display_ne_nil]
  have huh : u.hasPath = true := by simp [Uri.hasPath, hne]
  have hquery : u.query = none ↔ p.query = none := by
    rw [Uri.query, Uri.query, PathAndQuery.query, PathAndQuery.query, queryPart_eq_none_iff,
      queryPart_eq_none_iff, hu, List.mem_append, or_iff_left he, question_mem_display]
  unfold Recognised
  rw [hquery, and_comm]
  refine and_congr_right fun hq => ?_
  rw [callbackTail, List.isPrefixOf?_eq_some_iff_append_eq, path_of_query_none hp hq,
    path_of_query_none huh (hquery.2 hq), PathAndQuery.asStr, PathAndQuery.asStr, if_neg hne, hu,
    List.append_left_inj, Rooted]
  by_cases hd : p.pathAndQuery.data = []
  · simp [hd, PathAndQuery.display]
  · rw [if_neg hd, or_iff_right hd, PathAndQuery.display]
    split
    · rename_i hr
      simp [hr]
    · rename_i hr
      refine iff_of_false (fun h => ?_) hr
      exact absurd (congrArg List.length h) (by simp)

/-- An encoded id begins no query. -/
theorem question_not_mem_encode (cs : Charset) (E : Engine) (id : List UInt8) :
    '?' ∉ CallbackId.encode E id := fun h => by
  simpa [cs.path_question] using (encode_anywhere cs E id _ h).1

/-! ## Where they agree -/

/-- A callback that routes back is rooted, without a query. -/
theorem rooted_of_routesBack {E : Engine} {callback : Uri cs} {id : UInt64}
    (h : RoutesBack E callback id) :
    callback.hasPath = true ∧ callback.query = none ∧ Rooted callback := by
  have he := question_not_mem_encode cs E (toLeBytes id)
  obtain ⟨p, u, hp, hu, hrec, -, -, -, -⟩ := h
  have hph := hasPath_of_makeCallback hu
  have hch := hasPath_of_prepareCallbackPrefix hp hph
  obtain ⟨p', hp', -, -, hdata⟩ := prepareCallbackPrefix_spec hch
  obtain rfl : p = p' := Option.some_inj.1 (hp.symm.trans hp')
  obtain ⟨u', hu', -, -, hud⟩ := makeCallback_spec E hph id
  obtain rfl : u = u' := Option.some_inj.1 (hu.symm.trans hu')
  rw [recognised_iff hph he hud, prepared_query hdata, prepared_rooted hdata] at hrec
  exact ⟨hch, hrec⟩

/-- A rooted callback without a query routes back for every id. -/
theorem routesBack_of_rooted (E : Engine) {callback : Uri cs} (hch : callback.hasPath = true)
    (hq : callback.query = none) (hr : Rooted callback) (id : UInt64) :
    RoutesBack E callback id := by
  have he := question_not_mem_encode cs E (toLeBytes id)
  obtain ⟨p, hp, hsch, ha, hdata⟩ := prepareCallbackPrefix_spec hch
  have hph := prepared_hasPath hdata hsch hch
  have hpq := (prepared_query hdata).2 hq
  have hslash := prepared_endsWithSlash hdata
  obtain ⟨u, hu, -, -, hud⟩ := makeCallback_spec E hph id
  refine ⟨p, u, hp, hu, (recognised_iff hph he hud).2 ⟨hpq, (prepared_rooted hdata).2 hr⟩, ?_,
    prepareCallbackPrefix_of_endsWithSlash hph hslash, hsch, ha⟩
  rw [path_of_query_none hph hpq]
  exact hslash

/-- `prepare_callback_prefix`, `make_callback` and `Service::call` agree exactly for a
callback with a rooted path and no query. -/
theorem routesBack_iff (E : Engine) (callback : Uri cs) (id : UInt64) :
    RoutesBack E callback id ↔
      callback.hasPath = true ∧ callback.query = none ∧ Rooted callback :=
  ⟨rooted_of_routesBack, fun ⟨hp, hq, hr⟩ => routesBack_of_rooted E hp hq hr id⟩

/-- A URI of the host `example.com`. -/
def exampleUri (data : List Char) (valid : Valid .http data) : Uri .http where
  scheme := some "http".toList
  authority := some "example.com".toList
  pathAndQuery := ⟨data, valid⟩
  authority_of_scheme _ := rfl
  alone := nofun

/-- The callback `http://example.com/websub?x=1` puts slash and id behind `x=1`. -/
theorem not_routesBack_query :
    (exampleUri "/websub?x=1".toList (by decide)).hasPath = true ∧
      ¬RoutesBack urlSafeNoPad (exampleUri "/websub?x=1".toList (by decide)) 1 :=
  ⟨by decide, fun h => absurd (rooted_of_routesBack h).2.1 (by decide)⟩

/-! ## The callbacks of the two entry points -/

/-- The prepared text is written one slash longer, or is the same. -/
theorem display_prepared {c p : Uri cs} (hdata : p.pathAndQuery.data = preparedData c)
    (hs : ¬EndsWithSlash c) : p.pathAndQuery.display = c.pathAndQuery.display ++ ['/'] := by
  obtain ⟨x, xs, hx⟩ := List.exists_cons_of_ne_nil (asStr_eq_data hs).2
  unfold EndsWithSlash at hs
  unfold preparedData at hdata
  rw [if_neg hs] at hdata
  unfold PathAndQuery.display
  rw [hdata, hx]
  split <;> simp_all

/-- Callbacks of the same host are written alike only if their texts are the same. -/
theorem display_makeCallback {E : Engine} {c p u v : Uri cs} {id : UInt64}
    (hsch : p.scheme = c.scheme) (ha : p.authority = c.authority)
    (hu : makeCallback E c id = some u) (hv : makeCallback E p id = some v) :
    u.display = v.display ↔ c.pathAndQuery.display = p.pathAndQuery.display := by
  have display_of {c u : Uri cs} (hu : makeCallback E c id = some u) :
      u.display = Uri.origin c.scheme c.authority ++
        (c.pathAndQuery.display ++ CallbackId.encode E (toLeBytes id)) := by
    obtain ⟨u', hu', hus, hua, hud⟩ := makeCallback_spec E (hasPath_of_makeCallback hu) id
    obtain rfl : u = u' := Option.some_inj.1 (hu.symm.trans hu')
    have hhead : u.pathAndQuery.data.head? = some '/' ∨ u.pathAndQuery.data.head? = some '*' := by
      rw [hud, List.head?_append_of_ne_nil _ (display_ne_nil _)]
      exact display_head _
    have huh : u.hasPath = true := by
      simp [Uri.hasPath, hud, display_ne_nil]
    rw [Uri.display_eq huh hhead, hus, hua, hud]
  rw [display_of hu, display_of hv, hsch, ha, List.append_right_inj, List.append_left_inj]

/-- The two callbacks are the same only if the given one is rooted and ends with a slash. -/
theorem rooted_of_sameCallback {E : Engine} {callback : Uri cs} {id : UInt64}
    (h : SameCallback E callback id) : callback.hasPath = true ∧ callback.query = none ∧
      Rooted callback ∧ EndsWithSlash callback := by
  obtain ⟨p, u, v, hp, hu, hv, hdisp, hrec⟩ := h
  have hch := hasPath_of_makeCallback hu
  obtain ⟨p', hp', hsch, ha, hdata⟩ := prepareCallbackPrefix_spec hch
  obtain rfl : p = p' := Option.some_inj.1 (hp.symm.trans hp')
  rw [display_makeCallback hsch ha hu hv] at hdisp
  have hs : EndsWithSlash callback := by
    by_contra hs
    rw [display_prepared hdata hs] at hdisp
    simpa using congrArg List.length hdisp
  obtain rfl : callback = p :=
    Option.some_inj.1 ((prepareCallbackPrefix_of_endsWithSlash hch hs).symm.trans hp)
  obtain ⟨u', hu', -, -, hud⟩ := makeCallback_spec E hch id
  obtain rfl : u = u' := Option.some_inj.1 (hu.symm.trans hu')
  obtain ⟨hq, hr⟩ :=
    (recognised_iff hch (question_not_mem_encode cs E (toLeBytes id)) hud).1 hrec
  exact ⟨hch, hq, hr, hs⟩

/-- The entry points agree exactly on a callback that is rooted, has no query and ends in
a slash already. -/
theorem sameCallback_iff (E : Engine) (callback : Uri cs) (id : UInt64) :
    SameCallback E callback id ↔ callback.hasPath = true ∧ callback.query = none ∧
      Rooted callback ∧ EndsWithSlash callback := by
  refine ⟨rooted_of_sameCallback, ?_⟩
  rintro ⟨hch, hq, hr, hs⟩
  obtain ⟨u, hu, -, -, hud⟩ := makeCallback_spec E hch id
  exact ⟨callback, u, u, prepareCallbackPrefix_of_endsWithSlash hch hs, hu, hu, rfl,
    (recognised_iff hch (question_not_mem_encode cs E (toLeBytes id)) hud).2 ⟨hq, hr⟩⟩

/-- The callback `http://example.com/websub` : a service registers one below `/websub/`,
and the entry points called with it one that starts with `/websub`. -/
theorem not_sameCallback_websub :
    (exampleUri "/websub".toList (by decide)).hasPath = true ∧
      ¬SameCallback urlSafeNoPad (exampleUri "/websub".toList (by decide)) 1 :=
  ⟨by decide, fun h => absurd (rooted_of_sameCallback h).2.2.2 (by unfold EndsWithSlash; decide)⟩

end Websub
