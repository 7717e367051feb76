import Mathlib

/-!
# Base64, URL-safe alphabet, no padding

RFC 4648 §5 without padding. `urlSafeEncode` cuts a byte string into groups of three,
each written as four symbols, and a last group of one or two bytes as two or three.
`urlSafeDecode` is strict : it rejects a lone last symbol, symbols outside the alphabet
and trailing bits that are not zero, so it accepts exactly the strings `urlSafeEncode`
produces (`urlSafeDecode_eq_some_iff`).

`Engine` is what a caller relies on of an implementation : decoding inverts encoding,
nothing else is accepted, the length of the output, and the alphabet. `urlSafeNoPad` is
the implementation of this file. `Engine.decodeSlice` is decoding into a buffer, refused
when the buffer is shorter than three bytes for each started group of four symbols.
-/

namespace Base64

/-! ## The alphabet -/

/-- The symbols of the values `0` to `63`. -/
def alphabet : List Char :=
  "ABCDEFGHIJKLMNOPQRSTUVWXYZabcdefghijklmnopqrstuvwxyz0123456789-_".toList

/-- The symbol of a value below `64`. -/
def symbol (n : ℕ) : Char :=
  alphabet.getD n 'A'

/-- The value of a symbol. -/
def value (c : Char) : Option ℕ :=
  alphabet.idxOf? c

theorem length_alphabet : alphabet.length = 64 := by
  decide

theorem nodup_alphabet : alphabet.Nodup := by
  decide

theorem value_symbol {n : ℕ} (hn : n < 64) : value (symbol n) = some n := by
  have hn' : n < alphabet.length := by rw [length_alphabet]; exact hn
  unfold value symbol
  rw [List.getD_eq_getElem _ _ hn', List.idxOf?_eq_some_iff]
  exact ⟨hn', rfl, fun j hj h => hj.ne ((List.Nodup.getElem_inj_iff nodup_alphabet).1 h)⟩

theorem symbol_of_value {c : Char} {n : ℕ} (h : value c = some n) : n < 64 ∧ symbol n = c := by
  obtain ⟨hn, hc, -⟩ := List.idxOf?_eq_some_iff.1 h
  refine ⟨by rwa [length_alphabet] at hn, ?_⟩
  unfold symbol
  rw [List.getD_eq_getElem _ _ hn, hc]

theorem symbol_mem_alphabet {n : ℕ} (hn : n < 64) : symbol n ∈ alphabet := by
  have hn' : n < alphabet.length := by rw [length_alphabet]; exact hn
  unfold symbol
  rw [List.getD_eq_getElem _ _ hn']
  exact List.getElem_mem hn'

theorem mapM_value_map_symbol {l : List ℕ} (h : ∀ n ∈ l, n < 64) :
    (l.map symbol).mapM value = some l := by
  induction l with
  | nil => rfl
  | cons n l ih =>
    rw [List.forall_mem_cons] at h
    simp [value_symbol h.1, ih h.2]

theorem map_symbol_of_mapM_value {s : List Char} {l : List ℕ} (h : s.mapM value = some l) :
    (∀ n ∈ l, n < 64) ∧ l.map symbol = s := by
  induction s generalizing l with
  | nil =>
    obtain rfl : [] = l := by simpa using h
    simp
  | cons c s ih =>
    simp only [List.mapM_cons, Option.bind_eq_bind, Option.bind_eq_some_iff, Option.pure_def,
      Option.some_inj] at h
    obtain ⟨n, hn, l', hl', rfl⟩ := h
    obtain ⟨hlt, hsym⟩ := symbol_of_value hn
    obtain ⟨hall, hmap⟩ := ih hl'
    exact ⟨List.forall_mem_cons.2 ⟨hlt, hall⟩, by rw [List.map_cons, hsym, hmap]⟩

/-! ## Groups of six bits -/

/-- The six-bit groups of a byte string, the last one filled with zero bits. -/
def sextets : List UInt8 → List ℕ
  | [] => []
  | [a] => [a.toNat / 4, a.toNat % 4 * 16]
  | [a, b] => [a.toNat / 4, a.toNat % 4 * 16 + b.toNat / 16, b.toNat % 16 * 4]
  | a :: b :: c :: l => a.toNat / 4 :: (a.toNat % 4 * 16 + b.toNat / 16) ::
      (b.toNat % 16 * 4 + c.toNat / 64) :: c.toNat % 64 :: sextets l

/-- The byte string of six-bit groups, `none` where the bits left over are not a byte
string's : a lone group, or filling bits that are not zero. -/
def ofSextets : List ℕ → Option (List UInt8)
  | [] => some []
  | [_] => none
  | [p, q] => if q % 16 = 0 then some [UInt8.ofNat (p * 4 + q / 16)] else none
  | [p, q, r] =>
    if r % 4 = 0 then some [UInt8.ofNat (p * 4 + q / 16), UInt8.ofNat (q % 16 * 16 + r / 4)]
    else none
  | p :: q :: r :: s :: l =>
    (ofSextets l).map fun bs => UInt8.ofNat (p * 4 + q / 16) ::
      UInt8.ofNat (q % 16 * 16 + r / 4) :: UInt8.ofNat (r % 4 * 64 + s) :: bs

theorem sextets_lt : ∀ bs : List UInt8, ∀ n ∈ sextets bs, n < 64
  | [] => by simp [sextets]
  | [a] => by
    have ha := a.toNat_lt
    simp only [sextets, List.forall_mem_cons, List.not_mem_nil, false_implies, implies_true,
      and_true]
    omega
  | [a, b] => by
    have ha := a.toNat_lt
    have hb := b.toNat_lt
    simp only [sextets, List.forall_mem_cons, List.not_mem_nil, false_implies, implies_true,
      and_true]
    omega
  | a :: b :: c :: l => by
    have ha := a.toNat_lt
    have hb := b.toNat_lt
    have hc := c.toNat_lt
    have ih := sextets_lt l
    simp only [sextets, List.forall_mem_cons]
    exact ⟨by omega, by omega, by omega, by omega, ih⟩

theorem length_sextets : ∀ bs : List UInt8, (sextets bs).length = (4 * bs.length + 2) / 3
  | [] => rfl
  | [_] => by simp [sextets]
  | [_, _] => by simp [sextets]
  | _ :: _ :: _ :: l => by
    simp only [sextets, List.length_cons, length_sextets l]
    omega

theorem ofNat_eq {n : ℕ} {b : UInt8} (h : n = b.toNat) : UInt8.ofNat n = b := by
  rw [h, UInt8.ofNat_toNat]

theorem ofSextets_sextets : ∀ bs : List UInt8, ofSextets (sextets bs) = some bs
  | [] => rfl
  | [a] => by
    have ha := a.toNat_lt
    unfold sextets ofSextets
    rw [if_pos (by omega), ofNat_eq (by omega : _ = a.toNat)]
  | [a, b] => by
    have ha := a.toNat_lt
    have hb := b.toNat_lt
    rw [sextets, ofSextets, if_pos (by omega), ofNat_eq (by omega : _ = a.toNat),
      ofNat_eq (by omega : _ = b.toNat)]
  | a :: b :: c :: l => by
    have ha := a.toNat_lt
    have hb := b.toNat_lt
    have hc := c.toNat_lt
    rw [sextets, ofSextets, ofSextets_sextets l, Option.map_some,
      ofNat_eq (by omega : _ = a.toNat), ofNat_eq (by omega : _ = b.toNat),
      ofNat_eq (by omega : _ = c.toNat)]

theorem toNat_ofNat_of_lt {n : ℕ} (h : n < 256) : (UInt8.ofNat n).toNat = n := by
  rw [UInt8.toNat_ofNat']
  omega

/-- Only the groups of a byte string are accepted. -/
theorem sextets_of_ofSextets : ∀ {l : List ℕ} {bs : List UInt8}, (∀ n ∈ l, n < 64) →
    ofSextets l = some bs → sextets bs = l
  | [], bs, _, h => by
    obtain rfl : [] = bs := by simpa [ofSextets] using h
    rfl
  | [_], _, _, h => by simp [ofSextets] at h
  | [p, q], bs, hl, h => by
    simp only [List.forall_mem_cons, List.not_mem_nil, false_implies, implies_true,
      and_true] at hl
    unfold ofSextets at h
    rw [Option.ite_none_right_eq_some, Option.some_inj] at h
    obtain ⟨hq, rfl⟩ := h
    unfold sextets
    rw [toNat_ofNat_of_lt (by omega)]
    simp only [List.cons.injEq, and_true]
    omega
  | [p, q, r], bs, hl, h => by
    simp only [List.forall_mem_cons, List.not_mem_nil, false_implies, implies_true,
      and_true] at hl
    unfold ofSextets at h
    rw [Option.ite_none_right_eq_some, Option.some_inj] at h
    obtain ⟨hr, rfl⟩ := h
    unfold sextets
    rw [toNat_ofNat_of_lt (by omega), toNat_ofNat_of_lt (by omega)]
    simp only [List.cons.injEq, and_true]
    omega
  | p :: q :: r :: s :: l, bs, hl, h => by
    simp only [List.forall_mem_cons] at hl
    obtain ⟨hp, hq, hr, hs, hl⟩ := hl
    unfold ofSextets at h
    rw [Option.map_eq_some_iff] at h
    obtain ⟨bs', hbs', rfl⟩ := h
    rw [sextets, sextets_of_ofSextets hl hbs', toNat_ofNat_of_lt (by omega),
      toNat_ofNat_of_lt (by omega), toNat_ofNat_of_lt (by omega)]
    simp only [List.cons.injEq, and_true]
    omega

/-! ## Encoding and decoding -/

/-- Write a byte string with the URL-safe alphabet, without padding. -/
def urlSafeEncode (bs : List UInt8) : List Char :=
  (sextets bs).map symbol

/-- Read a URL-safe string without padding. -/
def urlSafeDecode (s : List Char) : Option (List UInt8) :=
  (s.mapM value).bind ofSextets

theorem urlSafeDecode_eq_some_iff (s : List Char) (bs : List UInt8) :
    urlSafeDecode s = some bs ↔ urlSafeEncode bs = s := by
  unfold urlSafeDecode urlSafeEncode
  rw [Option.bind_eq_some_iff]
  constructor
  · rintro ⟨l, hl, hbs⟩
    obtain ⟨hlt, hmap⟩ := map_symbol_of_mapM_value hl
    rw [sextets_of_ofSextets hlt hbs, hmap]
  · rintro rfl
    exact ⟨_, mapM_value_map_symbol (sextets_lt bs), ofSextets_sextets bs⟩

/-! ## Implementations -/

/-- An implementation of the encoding, with what its callers rely on. -/
structure Engine where
  encode : List UInt8 → List Char
  decode : List Char → Option (List UInt8)
  /-- Decoding accepts the encodings and nothing else. -/
  decode_eq_some_iff : ∀ s bs, decode s = some bs ↔ encode bs = s
  length_encode : ∀ bs, (encode bs).length = (4 * bs.length + 2) / 3
  encode_alphabet : ∀ bs, ∀ c ∈ encode bs, c ∈ alphabet

/-- The implementation of this file. -/
def urlSafeNoPad : Engine where
  encode := urlSafeEncode
  decode := urlSafeDecode
  decode_eq_some_iff := urlSafeDecode_eq_some_iff
  length_encode bs := by rw [urlSafeEncode, List.length_map, length_sextets]
  encode_alphabet bs := by
    intro c hc
    obtain ⟨n, hn, rfl⟩ := List.mem_map.1 hc
    exact symbol_mem_alphabet (sextets_lt bs n hn)

namespace Engine

variable (E : Engine)

theorem decode_encode (bs : List UInt8) : E.decode (E.encode bs) = some bs :=
  (E.decode_eq_some_iff _ _).2 rfl

theorem encode_injective : Function.Injective E.encode := by
  intro as bs h
  have hd : E.decode (E.encode as) = some bs := by rw [h, E.decode_encode]
  rw [E.decode_encode] at hd
  exact Option.some_inj.1 hd

/-- The bytes of a string in UTF-8. -/
def utf8Len (s : List Char) : ℕ :=
  (s.map Char.utf8Size).sum

/-- The room decoding asks for : three bytes for each started group of four bytes of
input. -/
def decodedLenEstimate (n : ℕ) : ℕ :=
  (n + 3) / 4 * 3

/-- Decode into the front of a buffer, with the number of bytes written. The bytes of
the buffer behind them stay as they are. -/
def decodeSlice (s : List Char) (buf : List UInt8) : Option (ℕ × List UInt8) :=
  if buf.length < decodedLenEstimate (utf8Len s) then none
  else (E.decode s).map fun bs => (bs.length, bs ++ buf.drop bs.length)

theorem utf8Size_of_mem_alphabet {c : Char} (h : c ∈ alphabet) : c.utf8Size = 1 := by
  have hall : (alphabet.all fun c => c.val ≤ 127) = true := by decide
  exact Char.utf8Size_eq_one_iff.2 (of_decide_eq_true (List.all_eq_true.1 hall c h))

theorem utf8Len_of_alphabet {s : List Char} (h : ∀ c ∈ s, c ∈ alphabet) :
    utf8Len s = s.length := by
  have hsize : s.map Char.utf8Size = s.map fun _ => 1 :=
    List.map_congr_left fun c hc => utf8Size_of_mem_alphabet (h c hc)
  unfold utf8Len
  rw [hsize, List.map_const', List.sum_replicate, smul_eq_mul, mul_one]

/-- An encoding takes one byte for each symbol. -/
theorem utf8Len_encode (bs : List UInt8) : utf8Len (E.encode bs) = (4 * bs.length + 2) / 3 := by
  rw [utf8Len_of_alphabet (E.encode_alphabet bs), E.length_encode]

end Engine

end Base64
