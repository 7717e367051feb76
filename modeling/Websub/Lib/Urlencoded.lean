import Mathlib

/-!
# Urlencoded forms

`application/x-www-form-urlencoded`. A form is a list of pairs of strings, written as `name=value`
with an ampersand between two pairs. Letters, digits and `*-._` stand for themselves, a plus for
a space, and every other byte of the UTF-8 is escaped with a percent sign.

`parse` is total, and reads more than `serialize` writes : a pair without an equals sign, an
empty piece, a percent sign without two digits, and bytes that are not UTF-8, which become
replacement characters. `parse_serialize` is the round trip.
-/

namespace Urlencoded

/-! ## Bytes -/

/-- The bytes that stand for themselves. -/
def unchanged (b : UInt8) : Bool :=
  b = 0x2A || b = 0x2D || b = 0x2E || (0x30 ≤ b && b ≤ 0x39) || (0x41 ≤ b && b ≤ 0x5A) ||
    b = 0x5F || (0x61 ≤ b && b ≤ 0x7A)

/-- A hexadecimal digit, in upper case. -/
def hexDigit (n : ℕ) : Char :=
  "0123456789ABCDEF".toList.getD n '0'

/-- The value of a hexadecimal digit, of either case. -/
def hexValue (c : Char) : Option ℕ :=
  if '0' ≤ c ∧ c ≤ '9' then some (c.toNat - '0'.toNat)
  else if 'A' ≤ c ∧ c ≤ 'F' then some (c.toNat - 'A'.toNat + 10)
  else if 'a' ≤ c ∧ c ≤ 'f' then some (c.toNat - 'a'.toNat + 10)
  else none

/-- The byte of two hexadecimal digits. -/
def hexByte (high low : Char) : Option UInt8 :=
  (hexValue high).bind fun h => (hexValue low).map fun l => UInt8.ofNat (16 * h + l)

/-- How a byte is written. -/
def encodeByte (b : UInt8) : List Char :=
  if unchanged b then [Char.ofNat b.toNat]
  else if b = 0x20 then ['+']
  else ['%', hexDigit (b.toNat / 16), hexDigit (b.toNat % 16)]

/-- The bytes of a text, without its escapes. -/
def percentDecode : List Char → List UInt8
  | [] => []
  | '%' :: high :: low :: text =>
    match hexByte high low with
    | some b => b :: percentDecode text
    | none => 0x25 :: percentDecode (high :: low :: text)
  | c :: text => (if c = '+' then [0x20] else String.utf8EncodeChar c) ++ percentDecode text

/-- What an encoded string is written with. -/
def alphabet : List Char :=
  "ABCDEFGHIJKLMNOPQRSTUVWXYZabcdefghijklmnopqrstuvwxyz0123456789*-._+%".toList

theorem hexValue_hexDigit : ∀ n < 16, hexValue (hexDigit n) = some n := by
  decide

theorem hexDigit_mem_alphabet : ∀ n < 16, hexDigit n ∈ alphabet := by
  decide

theorem hexByte_hexDigit (b : UInt8) :
    hexByte (hexDigit (b.toNat / 16)) (hexDigit (b.toNat % 16)) = some b := by
  have hhigh : b.toNat / 16 < 16 := Nat.div_lt_of_lt_mul b.toNat_lt
  have hlow : b.toNat % 16 < 16 := Nat.mod_lt _ (by decide)
  unfold hexByte
  rw [hexValue_hexDigit _ hhigh, hexValue_hexDigit _ hlow, Option.bind_some, Option.map_some,
    Nat.div_add_mod, UInt8.ofNat_toNat]

theorem percentDecode_cons {c : Char} (hc : c ≠ '%') (text : List Char) :
    percentDecode (c :: text) =
      (if c = '+' then [0x20] else String.utf8EncodeChar c) ++ percentDecode text := by
  rw [percentDecode]
  rintro - - - rfl
  exact absurd rfl hc

theorem percentDecode_escape {high low : Char} {b : UInt8} (h : hexByte high low = some b)
    (text : List Char) : percentDecode ('%' :: high :: low :: text) = b :: percentDecode text := by
  rw [percentDecode, h]

/-- A byte that stands for itself is a character of the alphabet. -/
theorem char_of_unchanged {b : UInt8} (h : unchanged b = true) :
    Char.ofNat b.toNat ∈ alphabet ∧ Char.ofNat b.toNat ≠ '%' ∧ Char.ofNat b.toNat ≠ '+' ∧
      String.utf8EncodeChar (Char.ofNat b.toNat) = [b] := by
  have hall : ∀ n < 256, unchanged (UInt8.ofNat n) = true →
      Char.ofNat n ∈ alphabet ∧ Char.ofNat n ≠ '%' ∧ Char.ofNat n ≠ '+' ∧
        String.utf8EncodeChar (Char.ofNat n) = [UInt8.ofNat n] := by
    decide +kernel
  have hb := hall b.toNat b.toNat_lt
  rw [UInt8.ofNat_toNat] at hb
  exact hb h

theorem encodeByte_subset (b : UInt8) : encodeByte b ⊆ alphabet := by
  unfold encodeByte
  split
  · rename_i h
    exact List.cons_subset.2 ⟨(char_of_unchanged h).1, List.nil_subset _⟩
  · split
    · decide
    · have hhigh := hexDigit_mem_alphabet (b.toNat / 16) (Nat.div_lt_of_lt_mul b.toNat_lt)
      have hlow := hexDigit_mem_alphabet (b.toNat % 16) (Nat.mod_lt _ (by decide))
      exact List.cons_subset.2 ⟨by decide, List.cons_subset.2 ⟨hhigh,
        List.cons_subset.2 ⟨hlow, List.nil_subset _⟩⟩⟩

theorem percentDecode_encodeByte (b : UInt8) (text : List Char) :
    percentDecode (encodeByte b ++ text) = b :: percentDecode text := by
  unfold encodeByte
  split
  · rename_i h
    obtain ⟨-, hpercent, hplus, hutf8⟩ := char_of_unchanged h
    rw [List.singleton_append, percentDecode_cons hpercent, if_neg hplus, hutf8,
      List.singleton_append]
  · split
    · rename_i h
      rw [h, List.singleton_append, percentDecode_cons (by decide), if_pos rfl,
        List.singleton_append]
    · exact percentDecode_escape (hexByte_hexDigit b) text

theorem percentDecode_flatMap (bytes : List UInt8) :
    percentDecode (bytes.flatMap encodeByte) = bytes := by
  induction bytes with
  | nil => rfl
  | cons b bytes ih => rw [List.flatMap_cons, percentDecode_encodeByte, ih]

/-! ## Characters -/

/-- The second byte may follow the first one of three or four. -/
def follows (first second : UInt8) : Bool :=
  (first = 0xE0 && 0xA0 ≤ second && second ≤ 0xBF) ||
    (0xE1 ≤ first && first ≤ 0xEC && 0x80 ≤ second && second ≤ 0xBF) ||
    (first = 0xED && 0x80 ≤ second && second ≤ 0x9F) ||
    (0xEE ≤ first && first ≤ 0xEF && 0x80 ≤ second && second ≤ 0xBF) ||
    (first = 0xF0 && 0x90 ≤ second && second ≤ 0xBF) ||
    (0xF1 ≤ first && first ≤ 0xF3 && 0x80 ≤ second && second ≤ 0xBF) ||
    (first = 0xF4 && 0x80 ≤ second && second ≤ 0x8F)

/-- The number of bytes that one replacement character stands for, at the start of bytes that
are no character. -/
def invalidLength : List UInt8 → ℕ
  | first :: second :: third :: _ =>
    if follows first second then
      if 0xF0 ≤ first ∧ 0x80 ≤ third ∧ third ≤ 0xBF then 3 else 2
    else 1
  | [first, second] => if follows first second then 2 else 1
  | _ => 1

/-- The characters of bytes, after so many of them are skipped. -/
def decodeLossy : ℕ → List UInt8 → List Char
  | _, [] => []
  | skip + 1, _ :: bytes => decodeLossy skip bytes
  | 0, b :: bytes =>
    match (b :: bytes).toByteArray.utf8DecodeChar? 0 with
    | some c => c :: decodeLossy (c.utf8Size - 1) bytes
    | none => Char.ofNat 0xFFFD :: decodeLossy (invalidLength (b :: bytes) - 1) bytes

/-- `String::from_utf8_lossy`. -/
def fromUtf8Lossy (bytes : List UInt8) : String :=
  String.ofList (decodeLossy 0 bytes)

theorem decodeLossy_append {skip : ℕ} {bytes : List UInt8} (h : bytes.length = skip)
    (rest : List UInt8) : decodeLossy skip (bytes ++ rest) = decodeLossy 0 rest := by
  induction bytes generalizing skip with
  | nil =>
    obtain rfl : 0 = skip := h
    rfl
  | cons b bytes ih =>
    obtain rfl : bytes.length + 1 = skip := h
    rw [List.cons_append, decodeLossy, ih rfl]

theorem decodeLossy_utf8EncodeChar (c : Char) (rest : List UInt8) :
    decodeLossy 0 (String.utf8EncodeChar c ++ rest) = c :: decodeLossy 0 rest := by
  have hsize := String.length_utf8EncodeChar c
  have hdecode : (String.utf8EncodeChar c ++ rest).toByteArray.utf8DecodeChar? 0 = some c := by
    rw [List.toByteArray_append]
    exact ByteArray.utf8DecodeChar?_utf8EncodeChar_append
  cases hbytes : String.utf8EncodeChar c with
  | nil =>
    rw [hbytes] at hsize
    exact absurd hsize.symm c.utf8Size_pos.ne'
  | cons b bytes =>
    rw [hbytes] at hsize hdecode
    rw [List.cons_append] at hdecode ⊢
    rw [decodeLossy, hdecode]
    exact congrArg (c :: ·) (decodeLossy_append (Nat.eq_sub_of_add_eq hsize) rest)

theorem decodeLossy_flatMap (text : List Char) :
    decodeLossy 0 (text.flatMap String.utf8EncodeChar) = text := by
  induction text with
  | nil => rfl
  | cons c text ih => rw [List.flatMap_cons, decodeLossy_utf8EncodeChar, ih]

/-! ## Forms -/

/-- The encoded form of a string. -/
def encode (s : String) : List Char :=
  (s.toList.flatMap String.utf8EncodeChar).flatMap encodeByte

/-- The string of an encoded text. -/
def decode (text : List Char) : String :=
  fromUtf8Lossy (percentDecode text)

/-- One pair, as it is written. -/
def serializePair (pair : String × String) : List Char :=
  encode pair.1 ++ '=' :: encode pair.2

/-- The form of a list of pairs. -/
def serialize (pairs : List (String × String)) : List Char :=
  List.intercalate ['&'] (pairs.map serializePair)

/-- A piece between two ampersands is cut at its first equals sign. -/
def parsePair (piece : List Char) : String × String :=
  (decode (piece.takeWhile (· ≠ '=')), decode ((piece.dropWhile (· ≠ '=')).drop 1))

/-- The pairs of a form. Empty pieces are passed over. -/
def parse (form : List Char) : List (String × String) :=
  ((form.splitOn '&').filter (· ≠ [])).map parsePair

theorem decode_encode (s : String) : decode (encode s) = s := by
  unfold decode encode fromUtf8Lossy
  rw [percentDecode_flatMap, decodeLossy_flatMap, String.ofList_toList]

theorem encode_subset (s : String) : encode s ⊆ alphabet := by
  intro c hc
  obtain ⟨b, -, hb⟩ := List.mem_flatMap.1 hc
  exact encodeByte_subset b hb

theorem ampersand_not_mem_encode (s : String) : '&' ∉ encode s :=
  fun h => absurd (encode_subset s h) (by decide)

theorem equals_not_mem_encode (s : String) : '=' ∉ encode s :=
  fun h => absurd (encode_subset s h) (by decide)

theorem parsePair_serializePair (pair : String × String) :
    parsePair (serializePair pair) = pair := by
  have hname : ∀ c ∈ encode pair.1, decide (c ≠ '=') = true := by
    intro c hc
    exact decide_eq_true fun h => equals_not_mem_encode pair.1 (h ▸ hc)
  unfold parsePair serializePair
  rw [List.takeWhile_append_of_pos hname, List.dropWhile_append_of_pos hname,
    List.takeWhile_cons_of_neg (by simp), List.dropWhile_cons_of_neg (by simp), List.append_nil,
    List.drop_one, List.tail_cons, decode_encode, decode_encode]

/-- Parsing gives the pairs back. -/
theorem parse_serialize (pairs : List (String × String)) : parse (serialize pairs) = pairs := by
  have hamp : ∀ piece ∈ pairs.map serializePair, '&' ∉ piece := by
    intro piece hpiece
    obtain ⟨pair, -, rfl⟩ := List.mem_map.1 hpiece
    unfold serializePair
    rw [List.mem_append, List.mem_cons]
    rintro (h | h | h)
    · exact ampersand_not_mem_encode _ h
    · exact absurd h (by decide)
    · exact ampersand_not_mem_encode _ h
  have hne : ∀ piece ∈ pairs.map serializePair, decide (piece ≠ []) = true := by
    intro piece hpiece
    obtain ⟨pair, -, rfl⟩ := List.mem_map.1 hpiece
    exact decide_eq_true (List.append_ne_nil_of_right_ne_nil _ (List.cons_ne_nil _ _))
  unfold parse serialize
  cases pairs with
  | nil => rfl
  | cons pair pairs =>
    rw [List.splitOn_intercalate _ hamp (List.cons_ne_nil _ _), List.filter_eq_self.2 hne,
      List.map_map]
    exact (List.map_congr_left fun p _ => parsePair_serializePair p).trans (List.map_id _)

theorem intercalate_subset {sep l : List Char} (hsep : sep ⊆ l) :
    ∀ {pieces : List (List Char)}, (∀ piece ∈ pieces, piece ⊆ l) → sep.intercalate pieces ⊆ l
  | [], _ => List.nil_subset l
  | [piece], h => by
    rw [List.intercalate_singleton]
    exact h piece List.mem_cons_self
  | piece :: next :: pieces, h => by
    rw [List.intercalate_cons_cons]
    exact List.append_subset.2 ⟨List.append_subset.2 ⟨h piece List.mem_cons_self, hsep⟩,
      intercalate_subset hsep fun p hp => h p (List.mem_cons_of_mem _ hp)⟩

/-- A form is written with its delimiters and with what strings are written with. -/
theorem serialize_subset (pairs : List (String × String)) :
    serialize pairs ⊆ '&' :: '=' :: alphabet := by
  have hencode (s : String) : encode s ⊆ '&' :: '=' :: alphabet :=
    fun c hc => List.mem_cons_of_mem _ (List.mem_cons_of_mem _ (encode_subset s hc))
  refine intercalate_subset (by simp) fun piece hpiece => ?_
  obtain ⟨pair, -, rfl⟩ := List.mem_map.1 hpiece
  exact List.append_subset.2 ⟨hencode _, List.cons_subset.2 ⟨by simp, hencode _⟩⟩

end Urlencoded
