import Websub.Lib.Stream

/-!
# Signatures

`signature.rs`. An `X-Hub-Signature` value names a method and gives a code in hexadecimal
digits, and a `Verifier` is the code with the state of the method's HMAC under a secret. The
methods come with two features of the crate, and a method whose feature is off is unknown.
`parse_grammar` is the grammar of what parses, and what the failures tell.

The hash functions are a parameter (`Hmac`) : an incremental code for each method, of the
length of its output.
-/

namespace Websub

open Streams

/-! ## The methods -/

/-- The hash function of a signature. -/
inductive Method
  | sha1
  | sha256
  | sha384
  | sha512
deriving DecidableEq

/-- The features of the crate that bring methods. -/
structure Features where
  sha1 : Bool
  sha2 : Bool

namespace Method

/-- The length of the code, in bytes. -/
def size : Method → ℕ
  | sha1 => 20
  | sha256 => 32
  | sha384 => 48
  | sha512 => 64

/-- The method's feature is on. -/
def enabled (features : Features) : Method → Bool
  | sha1 => features.sha1
  | sha256 | sha384 | sha512 => features.sha2

/-- `Signature::discriminant`. -/
def discriminant : Method → ℕ
  | sha1 => 0
  | sha256 => 1
  | sha384 => 2
  | sha512 => 3

/-- The name of the method in a header. -/
def name : Method → String
  | sha1 => "sha1"
  | sha256 => "sha256"
  | sha384 => "sha384"
  | sha512 => "sha512"

/-- The method of that name, if its feature is on. -/
def ofName (features : Features) (bytes : List UInt8) : Option Method :=
  [sha1, sha256, sha384, sha512].find? fun m => m.enabled features && bytes = m.name.toUTF8.toList

end Method

/-- `Hmac<D>` of the hmac crate, for the hash function `D` of each method. -/
abbrev Hmac := (m : Method) → Mac m.size

/-! ## Headers -/

/-- `Signature`. -/
structure Signature where
  method : Method
  code : Vector UInt8 method.size
deriving DecidableEq

/-- `SerializeError`. -/
inductive SerializeError
  | parse
  | unknownMethod (method : List UInt8)
deriving DecidableEq

/-- The value of a hexadecimal digit. -/
def hexVal (c : UInt8) : Option UInt8 :=
  if 0x41 ≤ c ∧ c ≤ 0x46 then some (c - 0x41 + 10)
  else if 0x61 ≤ c ∧ c ≤ 0x66 then some (c - 0x61 + 10)
  else if 0x30 ≤ c ∧ c ≤ 0x39 then some (c - 0x30)
  else none

/-- The bytes that pairs of hexadecimal digits stand for. -/
def hexPairs : List UInt8 → Option (List UInt8)
  | [] => some []
  | [_] => none
  | high :: low :: rest =>
    match hexVal high, hexVal low, hexPairs rest with
    | some h, some l, some bytes => some ((h <<< 4 ||| l) :: bytes)
    | _, _, _ => none

/-- `hex::decode_to_slice` : exactly the bytes of the slice are decoded. -/
def decodeHex (n : ℕ) (hex : List UInt8) : Option (Vector UInt8 n) :=
  match hexPairs hex with
  | some bytes => if h : bytes.toArray.size = n then some ⟨bytes.toArray, h⟩ else none
  | none => none

/-- `memchr::memchr` : the index of the first occurrence of a byte. -/
def memchr (x : UInt8) (bytes : List UInt8) : Option ℕ :=
  bytes.findIdx? (· = x)

namespace Signature

/-- `Signature::parse`. -/
def parse (features : Features) (headerValue : List UInt8) : Except SerializeError Signature :=
  match memchr 0x3D headerValue with
  | none => .error .parse
  | some i =>
    match Method.ofName features (headerValue.take i) with
    | none => .error (.unknownMethod (headerValue.take i))
    | some method =>
      match decodeHex method.size (headerValue.drop (i + 1)) with
      | none => .error .parse
      | some code => .ok ⟨method, code⟩

/-- `Signature::is_preferable_to`. -/
def isPreferableTo (sig other : Signature) : Bool :=
  other.method.discriminant ≤ sig.method.discriminant

end Signature

/-! ## What parses -/

/-- The digits of the values below 16, in lower case. -/
def lowerDigits : List UInt8 :=
  "0123456789abcdef".toUTF8.toList

/-- The digits in upper case. -/
def upperDigits : List UInt8 :=
  "0123456789ABCDEF".toUTF8.toList

/-- The byte is the hexadecimal digit of the value, in either case. -/
def IsHexDigit (c : UInt8) (n : ℕ) : Prop :=
  lowerDigits[n]? = some c ∨ upperDigits[n]? = some c

instance (c : UInt8) (n : ℕ) : Decidable (IsHexDigit c n) :=
  inferInstanceAs (Decidable (_ ∨ _))

/-- The digits, two for each of the bytes, the high one first. -/
inductive HexOf : List UInt8 → List UInt8 → Prop
  | nil : HexOf [] []
  | cons {high low : UInt8} {h l : ℕ} {hex bytes : List UInt8} : IsHexDigit high h →
      IsHexDigit low l → HexOf hex bytes →
        HexOf (high :: low :: hex) (UInt8.ofNat (16 * h + l) :: bytes)

/-- The two digits of each byte. -/
def encodeHex (digits bytes : List UInt8) : List UInt8 :=
  bytes.flatMap fun b => [digits.getD (b.toNat / 16) 0, digits.getD (b.toNat % 16) 0]

theorem HexOf.length_eq {hex bytes : List UInt8} (h : HexOf hex bytes) :
    hex.length = 2 * bytes.length := by
  induction h with
  | nil => rfl
  | cons _ _ _ ih =>
    simp only [List.length_cons, ih]
    omega

/-- Each of the sixteen digits reads back as its own value, in both cases. -/
theorem hexVal_getElem? : ∀ n < 16, lowerDigits[n]?.bind hexVal = some (UInt8.ofNat n) ∧
    upperDigits[n]?.bind hexVal = some (UInt8.ofNat n) := by
  decide +kernel

theorem IsHexDigit.lt {c : UInt8} {n : ℕ} (h : IsHexDigit c n) : n < 16 := by
  have hlower : lowerDigits.length = 16 := by decide +kernel
  have hupper : upperDigits.length = 16 := by decide +kernel
  rcases h with h | h
  · rw [← hlower]
    exact (List.getElem?_eq_some_iff.1 h).1
  · rw [← hupper]
    exact (List.getElem?_eq_some_iff.1 h).1

theorem IsHexDigit.hexVal {c : UInt8} {n : ℕ} (h : IsHexDigit c n) :
    hexVal c = some (UInt8.ofNat n) := by
  obtain ⟨hlower, hupper⟩ := hexVal_getElem? n h.lt
  rcases h with h | h
  · rwa [h] at hlower
  · rwa [h] at hupper

theorem isHexDigit_of_hexVal {c v : UInt8} (h : hexVal c = some v) : IsHexDigit c v.toNat := by
  have hall : ∀ n < 256, (hexVal (UInt8.ofNat n)).all
      (fun v => decide (IsHexDigit (UInt8.ofNat n) v.toNat)) = true := by
    decide +kernel
  have hc := hall c.toNat c.toNat_lt
  rw [UInt8.ofNat_toNat, h] at hc
  exact of_decide_eq_true hc

/-- Two digits make a byte. -/
theorem shiftLeft_or : ∀ h < 16, ∀ l < 16,
    UInt8.ofNat h <<< 4 ||| UInt8.ofNat l = UInt8.ofNat (16 * h + l) := by
  decide +kernel

theorem HexOf.hexPairs {hex bytes : List UInt8} (h : HexOf hex bytes) :
    hexPairs hex = some bytes := by
  induction h with
  | nil => rfl
  | cons hhigh hlow _ ih =>
    unfold Websub.hexPairs
    rw [hhigh.hexVal, hlow.hexVal, ih, ← shiftLeft_or _ hhigh.lt _ hlow.lt]

theorem hexOf_of_hexPairs {hex bytes : List UInt8} (h : hexPairs hex = some bytes) :
    HexOf hex bytes := by
  fun_induction Websub.hexPairs hex generalizing bytes with
  | case1 =>
    obtain rfl := Option.some_inj.1 h
    exact .nil
  | case2 => cases h
  | case3 high low rest hv lv rest' hrest hl hh ih =>
    obtain rfl := Option.some_inj.1 h
    have hhigh := isHexDigit_of_hexVal hh
    have hlow := isHexDigit_of_hexVal hl
    have hbyte := shiftLeft_or _ hhigh.lt _ hlow.lt
    rw [UInt8.ofNat_toNat, UInt8.ofNat_toNat] at hbyte
    rw [hbyte]
    exact .cons hhigh hlow (ih hrest)
  | case4 => cases h

/-- What is decoded are the digits of the code. -/
theorem decodeHex_eq_some_iff {n : ℕ} {hex : List UInt8} {code : Vector UInt8 n} :
    decodeHex n hex = some code ↔ HexOf hex code.toList := by
  unfold decodeHex
  constructor
  · intro h
    cases hp : hexPairs hex with
    | none => simp only [hp] at h; cases h
    | some bytes =>
      simp only [hp] at h
      split at h
      · obtain rfl := Option.some_inj.1 h
        exact hexOf_of_hexPairs hp
      · cases h
  · intro h
    rw [h.hexPairs]
    simp [Vector.toList]

theorem hexOf_encodeHex {digits : List UInt8}
    (hdigits : digits = lowerDigits ∨ digits = upperDigits) (bytes : List UInt8) :
    HexOf (encodeHex digits bytes) bytes := by
  have hdigit : ∀ n < 16, IsHexDigit (digits.getD n 0) n := by
    rcases hdigits with rfl | rfl
    · decide +kernel
    · decide +kernel
  induction bytes with
  | nil => exact .nil
  | cons b bytes ih =>
    have hcons := HexOf.cons (hdigit (b.toNat / 16) (by have := b.toNat_lt; omega))
      (hdigit (b.toNat % 16) (Nat.mod_lt _ (by omega))) ih
    rw [Nat.div_add_mod, UInt8.ofNat_toNat] at hcons
    exact hcons

theorem memchr_append {x : UInt8} {p : List UInt8} (h : x ∉ p) (rest : List UInt8) :
    memchr x (p ++ x :: rest) = some p.length := by
  unfold memchr
  rw [List.findIdx?_append, List.findIdx?_eq_none_iff.2, List.findIdx?_cons]
  · simp
  · intro y hy
    exact decide_eq_false fun hxy => h (hxy ▸ hy)

theorem memchr_eq_none {x : UInt8} {bytes : List UInt8} (h : x ∉ bytes) :
    memchr x bytes = none :=
  List.findIdx?_eq_none_iff.2 fun _ hy => decide_eq_false fun hxy => h (hxy ▸ hy)

/-- The features of the crate, all on. -/
def Features.all : Features :=
  ⟨true, true⟩

namespace Method

theorem notMem_name (m : Method) : 0x3D ∉ m.name.toUTF8.toList := by
  cases m <;> decide +kernel

theorem ofName_name (m : Method) : ofName .all m.name.toUTF8.toList = some m := by
  cases m <;> decide +kernel

theorem ofName_eq_none {bytes : List UInt8} (h : ∀ m : Method, bytes ≠ m.name.toUTF8.toList) :
    ofName .all bytes = none := by
  unfold ofName
  rw [List.find?_eq_none]
  intro m _
  rw [decide_eq_false (h m), Bool.and_false]
  exact Bool.false_ne_true

end Method

namespace Signature

/-- The value is split at its first equals sign. -/
theorem parse_append (features : Features) {p : List UInt8} (hp : 0x3D ∉ p) (rest : List UInt8) :
    parse features (p ++ 0x3D :: rest) =
      match Method.ofName features p with
      | none => .error (.unknownMethod p)
      | some method =>
        match decodeHex method.size rest with
        | none => .error .parse
        | some code => .ok ⟨method, code⟩ := by
  have hrest : (p ++ 0x3D :: rest).drop (p.length + 1) = rest := by
    rw [List.drop_append, List.drop_of_length_le (Nat.le_succ _)]
    simp
  unfold parse
  rw [memchr_append hp]
  simp only [List.take_left', hrest]

theorem parse_of_not_mem (features : Features) {v : List UInt8} (h : 0x3D ∉ v) :
    parse features v = .error .parse := by
  unfold parse
  rw [memchr_eq_none h]

theorem parse_of_name (m : Method) (rest : List UInt8) :
    parse .all (m.name.toUTF8.toList ++ 0x3D :: rest) =
      match decodeHex m.size rest with
      | none => .error .parse
      | some code => .ok ⟨m, code⟩ := by
  rw [parse_append .all m.notMem_name, m.ofName_name]

theorem parse_of_unknown {p : List UInt8} (hp : 0x3D ∉ p)
    (h : ∀ m : Method, p ≠ m.name.toUTF8.toList) (rest : List UInt8) :
    parse .all (p ++ 0x3D :: rest) = .error (.unknownMethod p) := by
  rw [parse_append .all hp, Method.ofName_eq_none h]

/-- A value has no equals sign, or before the first one the name of a method, or something
else. -/
theorem split_cases (v : List UInt8) :
    0x3D ∉ v ∨ (∃ m rest, v = (Method.name m).toUTF8.toList ++ 0x3D :: rest) ∨
      ∃ p rest, v = p ++ 0x3D :: rest ∧ 0x3D ∉ p ∧ ∀ m : Method, p ≠ m.name.toUTF8.toList := by
  by_cases hv : 0x3D ∈ v
  · obtain ⟨p, rest, rfl, hp⟩ := List.eq_append_cons_of_mem hv
    by_cases hname : ∃ m : Method, p = m.name.toUTF8.toList
    · obtain ⟨m, rfl⟩ := hname
      exact .inr (.inl ⟨m, rest, rfl⟩)
    · exact .inr (.inr ⟨p, rest, rfl, hp, not_exists.1 hname⟩)
  · exact .inl hv

/-- Exactly the digits of a code after the name of its method and an equals sign parse. -/
theorem parse_eq_ok_iff {v : List UInt8} {m : Method} {code : Vector UInt8 m.size} :
    parse .all v = .ok ⟨m, code⟩ ↔
      ∃ hex, v = m.name.toUTF8.toList ++ 0x3D :: hex ∧ HexOf hex code.toList := by
  constructor
  · intro h
    obtain hv | ⟨m', rest, rfl⟩ | ⟨p, rest, rfl, hp, hname⟩ := split_cases v
    · rw [parse_of_not_mem .all hv] at h
      cases h
    · rw [parse_of_name] at h
      cases hd : decodeHex m'.size rest with
      | none =>
        rw [hd] at h
        cases h
      | some code' =>
        rw [hd] at h
        cases h
        exact ⟨rest, rfl, decodeHex_eq_some_iff.1 hd⟩
    · rw [parse_of_unknown hp hname] at h
      cases h
  · rintro ⟨hex, rfl, hhex⟩
    rw [parse_of_name, decodeHex_eq_some_iff.2 hhex]

/-- A method is unknown if what stands before the first equals sign is no name. -/
theorem parse_eq_unknownMethod_iff {v p : List UInt8} :
    parse .all v = .error (.unknownMethod p) ↔
      (∃ rest, v = p ++ 0x3D :: rest) ∧ 0x3D ∉ p ∧ ∀ m : Method, p ≠ m.name.toUTF8.toList := by
  constructor
  · intro h
    obtain hv | ⟨m, rest, rfl⟩ | ⟨p', rest, rfl, hp, hname⟩ := split_cases v
    · rw [parse_of_not_mem .all hv] at h
      cases h
    · rw [parse_of_name] at h
      cases hd : decodeHex m.size rest <;> rw [hd] at h <;> cases h
    · rw [parse_of_unknown hp hname] at h
      cases h
      exact ⟨⟨rest, rfl⟩, hp, hname⟩
  · rintro ⟨⟨rest, rfl⟩, hp, hname⟩
    exact parse_of_unknown hp hname rest

/-- Nothing parses without an equals sign, or after a name with what is no code of the
method. -/
theorem parse_eq_parse_iff {v : List UInt8} :
    parse .all v = .error .parse ↔
      0x3D ∉ v ∨ ∃ m hex, v = (Method.name m).toUTF8.toList ++ 0x3D :: hex ∧
        ∀ code : Vector UInt8 m.size, ¬ HexOf hex code.toList := by
  constructor
  · intro h
    obtain hv | ⟨m, rest, rfl⟩ | ⟨p, rest, rfl, hp, hname⟩ := split_cases v
    · exact .inl hv
    · refine .inr ⟨m, rest, rfl, fun code hhex => ?_⟩
      rw [parse_eq_ok_iff.2 ⟨rest, rfl, hhex⟩] at h
      cases h
    · rw [parse_of_unknown hp hname] at h
      cases h
  · rintro (hv | ⟨m, hex, rfl, hhex⟩)
    · exact parse_of_not_mem .all hv
    · rw [parse_of_name]
      cases hd : decodeHex m.size hex with
      | none => rfl
      | some code => exact absurd (decodeHex_eq_some_iff.1 hd) (hhex code)

end Signature

/-- For every value, with all methods on : what parses, with which result, and which error
there is otherwise. The digits of a code in either case parse to it. -/
theorem parse_grammar (v : List UInt8) :
    (∀ (m : Method) (code : Vector UInt8 m.size),
      Signature.parse .all v = .ok ⟨m, code⟩ ↔
        ∃ hex, v = m.name.toUTF8.toList ++ 0x3D :: hex ∧ hex.length = 2 * m.size ∧
          HexOf hex code.toList) ∧
    (∀ p, Signature.parse .all v = .error (.unknownMethod p) ↔
      (∃ rest, v = p ++ 0x3D :: rest) ∧ 0x3D ∉ p ∧ ∀ m : Method, p ≠ m.name.toUTF8.toList) ∧
    (Signature.parse .all v = .error .parse ↔
      0x3D ∉ v ∨ ∃ m hex, v = (Method.name m).toUTF8.toList ++ 0x3D :: hex ∧
        ∀ code : Vector UInt8 m.size, ¬ HexOf hex code.toList) ∧
    ∀ (m : Method) (code : Vector UInt8 m.size),
      v = m.name.toUTF8.toList ++ 0x3D :: encodeHex lowerDigits code.toList ∨
        v = m.name.toUTF8.toList ++ 0x3D :: encodeHex upperDigits code.toList →
          Signature.parse .all v = .ok ⟨m, code⟩ := by
  refine ⟨fun m code => ?_, fun p => Signature.parse_eq_unknownMethod_iff,
    Signature.parse_eq_parse_iff, fun m code h => ?_⟩
  · rw [Signature.parse_eq_ok_iff]
    refine exists_congr fun hex => and_congr_right fun _ => ⟨fun hhex => ⟨?_, hhex⟩, And.right⟩
    rw [hhex.length_eq, Vector.length_toList]
  · rw [Signature.parse_eq_ok_iff]
    rcases h with rfl | rfl
    · exact ⟨_, rfl, hexOf_encodeHex (.inl rfl) _⟩
    · exact ⟨_, rfl, hexOf_encodeHex (.inr rfl) _⟩

/-! ## Verifiers -/

/-- `Verifier` : the signature, and the state of its HMAC. -/
structure Verifier (hmac : Hmac) where
  signature : Signature
  mac : (hmac signature.method).State

/-- `Signature::verify_with`. -/
def Signature.verifyWith (hmac : Hmac) (sig : Signature) (secret : List UInt8) : Verifier hmac :=
  ⟨sig, (hmac sig.method).new secret⟩

/-- `SignatureMismatch`. -/
inductive SignatureMismatch
  | mk
deriving DecidableEq

namespace Verifier

variable {hmac : Hmac} (v : Verifier hmac)

/-- `Verifier::update`. -/
def update (bytes : List UInt8) : Verifier hmac :=
  { v with mac := (hmac v.signature.method).update v.mac bytes }

/-- `Verifier::verify_reset`. -/
def verifyReset : Except SignatureMismatch Unit × Verifier hmac :=
  match (hmac v.signature.method).finalizeReset v.mac with
  | (code, mac) => (if code = v.signature.code then .ok () else .error .mk, { v with mac })

/-- The verifier checks the signature under the secret, and has absorbed the message. -/
def Holds (sig : Signature) (secret message : List UInt8) : Prop :=
  ∃ mac, v = ⟨sig, mac⟩ ∧ (hmac sig.method).Absorbed secret message mac

variable {v}

theorem holds_verifyWith (sig : Signature) (secret : List UInt8) :
    (sig.verifyWith hmac secret).Holds sig secret [] :=
  ⟨_, rfl, (hmac sig.method).absorbed_new secret⟩

theorem Holds.update {sig : Signature} {secret message : List UInt8}
    (h : v.Holds sig secret message) (bytes : List UInt8) :
    (v.update bytes).Holds sig secret (message ++ bytes) := by
  obtain ⟨mac, rfl, habsorbed⟩ := h
  exact ⟨_, rfl, (hmac sig.method).absorbed_update _ _ _ bytes habsorbed⟩

/-- The verifier accepts exactly the code of the message, and starts over. -/
theorem Holds.verifyReset {sig : Signature} {secret message : List UInt8}
    (h : v.Holds sig secret message) :
    v.verifyReset.1 = (if (hmac sig.method).code secret message = sig.code then .ok ()
      else .error .mk) ∧ v.verifyReset.2.Holds sig secret [] := by
  obtain ⟨mac, rfl, habsorbed⟩ := h
  refine ⟨?_, _, rfl, (hmac sig.method).absorbed_finalizeReset _ _ _ habsorbed⟩
  rw [← (hmac sig.method).finalizeReset_fst _ _ _ habsorbed]
  rfl

end Verifier

end Websub
