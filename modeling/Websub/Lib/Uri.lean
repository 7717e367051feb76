import Mathlib

/-!
# URIs as an HTTP library represents them

A `Uri` is a scheme, an authority and the text of path and query kept in one piece
(`PathAndQuery.data`), which `path` and `query` cut at the first question mark. The text
is validated when it is parsed (`PathAndQuery.tryFrom`) and cut at a fragment. Which
characters are let through differs between versions, so they are a parameter
(`Charset`), with what every version keeps : the delimiters are not path characters, and
a slash and the unreserved characters may stand anywhere.

`Uri` carries the two rules its constructors enforce : a scheme comes with an authority,
and an authority without a scheme comes alone. So an invalid `Uri` cannot be built, and
`fromParts` returns one exactly when the parts meet the rules.
-/

namespace Http

/-- The unreserved characters of a URI. -/
def unreserved : List Char :=
  "ABCDEFGHIJKLMNOPQRSTUVWXYZabcdefghijklmnopqrstuvwxyz0123456789-._~".toList

/-- The characters a parser lets through in a path and in a query. -/
structure Charset where
  path : Char → Bool
  query : Char → Bool
  path_question : path '?' = false
  path_hash : path '#' = false
  query_hash : query '#' = false
  slash : (path '/' && query '/') = true
  unreserved : (unreserved.all fun c => path c && query c) = true

/-- The characters that need no percent-encoding, and those the parser takes as they
are. -/
def Charset.http : Charset where
  path c :=
    c.val = 0x21 || (0x24 ≤ c.val && c.val ≤ 0x3B) || c.val = 0x3D ||
      (0x40 ≤ c.val && c.val ≤ 0x5F) || (0x61 ≤ c.val && c.val ≤ 0x7A) || c.val = 0x7C ||
      c.val = 0x7E || c = '"' || c = '\x7b' || c = '\x7d'
  query c :=
    c.val = 0x21 || (0x24 ≤ c.val && c.val ≤ 0x3B) || c.val = 0x3D ||
      (0x3F ≤ c.val && c.val ≤ 0x7E)
  path_question := by decide
  path_hash := by decide
  query_hash := by decide
  slash := by decide
  unreserved := by decide

/-! ## Path and query -/

/-- The text before the first question mark. -/
def pathPart (data : List Char) : List Char :=
  data.takeWhile (· ≠ '?')

/-- The text behind the first question mark, if there is one. -/
def queryPart (data : List Char) : Option (List Char) :=
  match data.dropWhile (· ≠ '?') with
  | [] => none
  | _ :: q => some q

theorem queryPart_eq_none_iff {data : List Char} : queryPart data = none ↔ '?' ∉ data := by
  induction data with
  | nil => simp [queryPart]
  | cons c data ih =>
    by_cases hc : c = '?'
    · simp [queryPart, hc]
    · rw [List.mem_cons, not_or, ← ih]
      simp [queryPart, hc, Ne.symm hc]

theorem pathPart_eq_self {data : List Char} (h : '?' ∉ data) : pathPart data = data := by
  unfold pathPart
  rw [List.takeWhile_eq_self_iff]
  intro c hc
  simpa using fun (hq : c = '?') => h (hq ▸ hc)

/-- All characters may stand where they stand. -/
def Valid (cs : Charset) (data : List Char) : Prop :=
  (pathPart data).all cs.path = true ∧ ∀ q ∈ queryPart data, q.all cs.query = true

instance (cs : Charset) (data : List Char) : Decidable (Valid cs data) :=
  inferInstanceAs (Decidable (_ ∧ _))

/-- Text of a path and an optional query that has been validated. -/
structure PathAndQuery (cs : Charset) where
  data : List Char
  valid : Valid cs data
deriving DecidableEq

namespace PathAndQuery

variable {cs : Charset}

@[ext] theorem ext {p q : PathAndQuery cs} (h : p.data = q.data) : p = q := by
  cases p
  cases q
  simpa using h

/-- No text at all. -/
def empty : PathAndQuery cs :=
  ⟨[], by simp [Valid, pathPart, queryPart]⟩

/-- Parse : drop a fragment, refuse characters that have to be percent-encoded. -/
def tryFrom (cs : Charset) (src : List Char) : Option (PathAndQuery cs) :=
  if h : Valid cs (src.takeWhile (· ≠ '#')) then some ⟨_, h⟩ else none

/-- The path, a single slash if there is no text before the query. -/
def path (p : PathAndQuery cs) : List Char :=
  if pathPart p.data = [] then ['/'] else pathPart p.data

/-- The query, without its question mark. -/
def query (p : PathAndQuery cs) : Option (List Char) :=
  queryPart p.data

/-- The text as it is kept, a single slash if there is none. -/
def asStr (p : PathAndQuery cs) : List Char :=
  if p.data = [] then ['/'] else p.data

/-- The text as it is written, with a leading slash unless it starts with one or with an
asterisk. -/
def display (p : PathAndQuery cs) : List Char :=
  if p.data.head? = some '/' ∨ p.data.head? = some '*' then p.data else '/' :: p.data

end PathAndQuery

theorem pathPart_append_question {pre : List Char} (h : '?' ∉ pre) (post : List Char) :
    pathPart (pre ++ '?' :: post) = pre := by
  have hpre : ∀ c ∈ pre, decide (c ≠ '?') = true := by
    intro c hc
    simpa using fun hq : c = '?' => h (hq ▸ hc)
  unfold pathPart
  rw [List.takeWhile_append_of_pos hpre]
  simp

theorem queryPart_append_question {pre : List Char} (h : '?' ∉ pre) (post : List Char) :
    queryPart (pre ++ '?' :: post) = some post := by
  have hpre : ∀ c ∈ pre, decide (c ≠ '?') = true := by
    intro c hc
    simpa using fun hq : c = '?' => h (hq ▸ hc)
  unfold queryPart
  rw [List.dropWhile_append_of_pos hpre]
  simp

/-- Characters that may stand anywhere can be appended. -/
theorem valid_append {cs : Charset} {data tail : List Char} (h : Valid cs data)
    (ht : ∀ c ∈ tail, cs.path c = true ∧ cs.query c = true) : Valid cs (data ++ tail) := by
  have htq : '?' ∉ tail := fun hm => by simpa [cs.path_question] using (ht _ hm).1
  by_cases hq : '?' ∈ data
  · obtain ⟨pre, post, rfl, hpre⟩ := List.eq_append_cons_of_mem hq
    unfold Valid at h
    rw [pathPart_append_question hpre, queryPart_append_question hpre] at h
    rw [List.append_assoc, List.cons_append, Valid, pathPart_append_question hpre,
      queryPart_append_question hpre]
    refine ⟨h.1, fun q hq' => ?_⟩
    obtain rfl := Option.some_inj.1 hq'
    rw [List.all_append, h.2 post rfl, Bool.true_and, List.all_eq_true]
    exact fun c hc => (ht c hc).2
  · have hq' : '?' ∉ data ++ tail := by simp [hq, htq]
    unfold Valid at h
    rw [pathPart_eq_self hq, queryPart_eq_none_iff.2 hq] at h
    unfold Valid
    rw [pathPart_eq_self hq', queryPart_eq_none_iff.2 hq']
    refine ⟨?_, by simp⟩
    rw [List.all_append, h.1, Bool.true_and, List.all_eq_true]
    exact fun c hc => (ht c hc).1

/-- A leading slash can be put in front. -/
theorem valid_slash_cons {cs : Charset} {data : List Char} (h : Valid cs data) :
    Valid cs ('/' :: data) := by
  have hslash := cs.slash
  rw [Bool.and_eq_true] at hslash
  have hp : pathPart ('/' :: data) = '/' :: pathPart data := by simp [pathPart]
  have hq : queryPart ('/' :: data) = queryPart data := by simp [queryPart]
  unfold Valid
  rw [hp, hq, List.all_cons, hslash.1, Bool.true_and]
  exact h

/-- Valid text has no fragment to be dropped. -/
theorem takeWhile_hash {cs : Charset} {data : List Char} (h : Valid cs data) :
    data.takeWhile (· ≠ '#') = data := by
  rw [List.takeWhile_eq_self_iff]
  intro c hc
  rw [decide_eq_true_eq]
  rintro rfl
  by_cases hq : '?' ∈ data
  · obtain ⟨pre, post, rfl, hpre⟩ := List.eq_append_cons_of_mem hq
    unfold Valid at h
    rw [pathPart_append_question hpre, queryPart_append_question hpre] at h
    rcases List.mem_append.1 hc with hc | hc
    · simpa [cs.path_hash] using List.all_eq_true.1 h.1 _ hc
    · rcases List.mem_cons.1 hc with hc | hc
      · exact absurd hc (by decide)
      · simpa [cs.query_hash] using List.all_eq_true.1 (h.2 post rfl) _ hc
  · unfold Valid at h
    rw [pathPart_eq_self hq] at h
    simpa [cs.path_hash] using List.all_eq_true.1 h.1 _ hc

namespace PathAndQuery

variable {cs : Charset}

/-- Parsing keeps valid text as it is. -/
theorem tryFrom_of_valid {data : List Char} (h : Valid cs data) :
    tryFrom cs data = some ⟨data, h⟩ := by
  have hd := takeWhile_hash h
  have hv : Valid cs (data.takeWhile (· ≠ '#')) := by rwa [hd]
  unfold tryFrom
  rw [dif_pos hv]
  exact congrArg some (PathAndQuery.ext hd)

theorem asStr_valid (p : PathAndQuery cs) : Valid cs p.asStr := by
  unfold asStr
  split
  · have hslash := cs.slash
    rw [Bool.and_eq_true] at hslash
    simp [Valid, pathPart, queryPart, hslash.1]
  · exact p.valid

theorem display_valid (p : PathAndQuery cs) : Valid cs p.display := by
  unfold display
  split
  · exact p.valid
  · exact valid_slash_cons p.valid

end PathAndQuery

/-! ## URIs -/

/-- The components a URI is taken apart into and put together from. -/
structure Parts (cs : Charset) where
  scheme : Option (List Char)
  authority : Option (List Char)
  pathAndQuery : Option (PathAndQuery cs)

/-- A URI. A scheme comes with an authority, and an authority without a scheme comes
alone. -/
structure Uri (cs : Charset) where
  scheme : Option (List Char)
  authority : Option (List Char)
  pathAndQuery : PathAndQuery cs
  authority_of_scheme : scheme.isSome → authority.isSome
  alone : scheme = none → authority.isSome → pathAndQuery = .empty
deriving DecidableEq

namespace Uri

variable {cs : Charset}

/-- `path_and_query()` is there unless the URI is an authority alone. -/
def pathAndQuery? (u : Uri cs) : Option (PathAndQuery cs) :=
  if u.scheme.isSome ∨ u.authority = none then some u.pathAndQuery else none

/-- The URI has a path : some text, or the empty path behind an authority. -/
def hasPath (u : Uri cs) : Bool :=
  u.pathAndQuery.data ≠ [] || u.scheme.isSome

def path (u : Uri cs) : List Char :=
  if u.hasPath then u.pathAndQuery.path else []

def query (u : Uri cs) : Option (List Char) :=
  u.pathAndQuery.query

/-- The text of scheme and authority. -/
def origin (scheme authority : Option (List Char)) : List Char :=
  match scheme with
  | some s => s ++ [':', '/', '/'] ++ authority.getD []
  | none => authority.getD []

/-- The text of a URI. -/
def display (u : Uri cs) : List Char :=
  origin u.scheme u.authority ++ u.path ++
    match u.query with
    | some q => '?' :: q
    | none => []

def intoParts (u : Uri cs) : Parts cs :=
  ⟨u.scheme, u.authority, if u.hasPath then some u.pathAndQuery else none⟩

/-- Put parts together, refused if an authority, a path or a scheme is missing. -/
def fromParts : Parts cs → Option (Uri cs)
  | ⟨some s, some a, some p⟩ => some ⟨some s, some a, p, by simp, by simp⟩
  | ⟨some _, some _, none⟩ => none
  | ⟨some _, none, _⟩ => none
  | ⟨none, some _, some _⟩ => none
  | ⟨none, some a, none⟩ => some ⟨none, some a, .empty, by simp, by simp⟩
  | ⟨none, none, p⟩ => some ⟨none, none, p.getD .empty, by simp, by simp⟩

/-- A URI with a path is not an authority alone. -/
theorem scheme_or_authority {u : Uri cs} (h : u.hasPath = true) :
    u.scheme.isSome ∨ u.authority = none := by
  by_contra hn
  rw [not_or, Option.not_isSome_iff_eq_none] at hn
  have ha : u.authority.isSome := Option.isSome_iff_ne_none.2 hn.2
  have hp := u.alone hn.1 ha
  simp [hasPath, hp, hn.1, PathAndQuery.empty] at h

theorem pathAndQuery?_of_hasPath {u : Uri cs} (h : u.hasPath = true) :
    u.pathAndQuery? = some u.pathAndQuery :=
  if_pos (scheme_or_authority h)

/-- Replacing the path and query of a URI with a path always works. -/
theorem exists_fromParts {u : Uri cs} (h : u.hasPath = true) (p : PathAndQuery cs) :
    ∃ v, fromParts { u.intoParts with pathAndQuery := some p } = some v ∧
      v.scheme = u.scheme ∧ v.authority = u.authority ∧ v.pathAndQuery = p := by
  have hsa := scheme_or_authority h
  obtain ⟨scheme, authority, q, hs, hq⟩ := u
  cases scheme with
  | none =>
    cases authority with
    | none => exact ⟨_, rfl, rfl, rfl, rfl⟩
    | some a => simp at hsa
  | some s =>
    cases authority with
    | none => simp at hs
    | some a => exact ⟨_, rfl, rfl, rfl, rfl⟩

theorem display_eq {u : Uri cs} (h : u.hasPath = true)
    (hd : u.pathAndQuery.data.head? = some '/' ∨ u.pathAndQuery.data.head? = some '*') :
    u.display = origin u.scheme u.authority ++ u.pathAndQuery.data := by
  have hne : u.pathAndQuery.data ≠ [] := by
    rintro h
    simp [h] at hd
  unfold display path
  rw [if_pos h, PathAndQuery.path, query, PathAndQuery.query, List.append_assoc]
  congr 1
  by_cases hq : '?' ∈ u.pathAndQuery.data
  · obtain ⟨pre, post, hdata, hpre⟩ := List.eq_append_cons_of_mem hq
    have hpne : pre ≠ [] := by
      rintro rfl
      simp [hdata] at hd
    rw [hdata, pathPart_append_question hpre, queryPart_append_question hpre, if_neg hpne]
  · rw [pathPart_eq_self hq, queryPart_eq_none_iff.2 hq, if_neg hne, List.append_nil]

/-- The target of a request to the URI : its path and query, without the origin. -/
def originForm (u : Uri cs) : Uri cs :=
  ⟨none, none, u.pathAndQuery, by simp, by simp⟩

/-- The target of a request to the URI with a query behind the one it has. -/
def addQuery (u : Uri cs) (q : List Char) : Option (Uri cs) :=
  (PathAndQuery.tryFrom cs (u.pathAndQuery.data ++ (if u.query = none then '?' else '&') :: q)).map
    fun p => ⟨none, none, p, by simp, by simp⟩

theorem path_of_data {u v : Uri cs} (hne : u.pathAndQuery.data ≠ [])
    (h : pathPart v.pathAndQuery.data = pathPart u.pathAndQuery.data)
    (hv : v.pathAndQuery.data ≠ []) : v.path = u.path := by
  have hpath {w : Uri cs} (hw : w.pathAndQuery.data ≠ []) : w.hasPath = true := by
    simp [hasPath, hw]
  unfold path PathAndQuery.path
  rw [if_pos (hpath hne), if_pos (hpath hv), h]

theorem path_originForm {u : Uri cs} (hne : u.pathAndQuery.data ≠ []) :
    u.originForm.path = u.path :=
  path_of_data hne rfl hne

/-- A query that is let through is added to a URI without one, and the path stays. -/
theorem exists_addQuery {u : Uri cs} (hne : u.pathAndQuery.data ≠ []) (hu : u.query = none)
    {q : List Char} (hq : q.all cs.query = true) :
    ∃ v, u.addQuery q = some v ∧ v.path = u.path ∧ v.query = some q := by
  have hquestion : '?' ∉ u.pathAndQuery.data := queryPart_eq_none_iff.1 hu
  have hvalid : Valid cs (u.pathAndQuery.data ++ '?' :: q) := by
    have hdata := u.pathAndQuery.valid
    unfold Valid at hdata ⊢
    rw [pathPart_eq_self hquestion] at hdata
    rw [pathPart_append_question hquestion, queryPart_append_question hquestion]
    refine ⟨hdata.1, fun q' hq' => ?_⟩
    obtain rfl := Option.some_inj.1 hq'
    exact hq
  refine ⟨⟨none, none, ⟨_, hvalid⟩, by simp, by simp⟩, ?_, ?_, ?_⟩
  · unfold addQuery
    rw [if_pos hu, PathAndQuery.tryFrom_of_valid hvalid, Option.map_some]
  · refine path_of_data hne ?_ (List.append_ne_nil_of_left_ne_nil hne _)
    rw [pathPart_append_question hquestion, pathPart_eq_self hquestion]
  · exact queryPart_append_question hquestion q

end Uri

end Http
