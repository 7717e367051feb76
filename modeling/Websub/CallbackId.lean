import Websub.Lib.LittleEndian
import Websub.Lib.Base64

/-!
# Callback ids

`util::callback_id` : the last path segment of a callback URI is the subscription id,
its eight little-endian bytes cut short and written in URL-safe base64.

`encode` cuts at the *last* zero byte `memrchr` finds, which strips the most significant
zeroes only if that byte is the most significant one. Where a zero byte has a nonzero
byte above it, the cut drops the bytes above, and 255 or more ids share what is left.
`decode_encode_iff` is the exact set of ids that survive : those below `2 ^ 56`, and
those without a zero byte. `decode_exact` is what decodes, and to which id. The base64 crate
is a parameter (`Base64.Engine`).
-/

namespace Websub

open LittleEndian Base64

/-! ## The code -/

/-- `u64::to_le_bytes`. -/
def toLeBytes (id : UInt64) : List UInt8 :=
  leBytes 8 id.toNat

/-- `u64::from_le_bytes`. -/
def fromLeBytes (bytes : List UInt8) : UInt64 :=
  UInt64.ofNat (ofLeBytes bytes)

/-- `memchr::memrchr` : the index of the last occurrence of a byte. -/
def memrchr (x : UInt8) : List UInt8 → Option ℕ
  | [] => none
  | b :: bs =>
    match memrchr x bs with
    | some i => some (i + 1)
    | none => if b = x then some 0 else none

namespace CallbackId

/-- The bytes of an id that `encode` writes. -/
def strip (id : List UInt8) : List UInt8 :=
  id.take ((memrchr 0 id).getD id.length)

variable (E : Engine)

/-- `callback_id::encode`. -/
def encode (id : List UInt8) : List Char :=
  E.encode (strip id)

/-- `callback_id::decode`. -/
def decode (id : List Char) : Option UInt64 :=
  if Engine.utf8Len id > 11 then none
  else
    match E.decodeSlice id (List.replicate 9 0) with
    | none => none
    | some (n, buf) => if n > 8 then none else some (fromLeBytes (buf.take 8))

/-- The ids whose cut drops nothing but zero bytes : the most significant byte is zero,
or no byte is. -/
def Survives (id : UInt64) : Prop :=
  id.toNat < 2 ^ 56 ∨ 0 ∉ toLeBytes id

instance (id : UInt64) : Decidable (Survives id) :=
  inferInstanceAs (Decidable (_ ∨ _))

end CallbackId

/-! ## Bytes of an id -/

@[simp] theorem length_toLeBytes (id : UInt64) : (toLeBytes id).length = 8 :=
  length_leBytes 8 _

/-- The bytes of an id are those of its number. -/
theorem ofLeBytes_toLeBytes (id : UInt64) : ofLeBytes (toLeBytes id) = id.toNat := by
  unfold toLeBytes
  rw [ofLeBytes_leBytes]
  exact Nat.mod_eq_of_lt id.toNat_lt

/-- Every string of eight bytes is the bytes of an id. -/
theorem toLeBytes_fromLeBytes {bs : List UInt8} (h : bs.length = 8) :
    toLeBytes (fromLeBytes bs) = bs := by
  have hlt := ofLeBytes_lt bs
  rw [h] at hlt
  unfold toLeBytes fromLeBytes
  rw [UInt64.toNat_ofNat_of_lt' hlt, ← h, leBytes_ofLeBytes]

theorem fromLeBytes_eq_iff {bs : List UInt8} (h : bs.length ≤ 8) (id : UInt64) :
    fromLeBytes bs = id ↔ ofLeBytes bs = id.toNat := by
  have hlt : ofLeBytes bs < UInt64.size :=
    (ofLeBytes_lt bs).trans_le (Nat.pow_le_pow_right (by norm_num) h)
  unfold fromLeBytes
  rw [← UInt64.toNat_inj, UInt64.toNat_ofNat_of_lt' hlt]

/-! ## The last zero byte -/

/-- Nothing is found where the byte does not occur. -/
theorem memrchr_eq_none_iff {x : UInt8} {bs : List UInt8} : memrchr x bs = none ↔ x ∉ bs := by
  induction bs with
  | nil => simp [memrchr]
  | cons b bs ih =>
    cases h : memrchr x bs with
    | none =>
      have hx := ih.1 h
      by_cases hb : b = x
      · simp [memrchr, h, hb]
      · simp [memrchr, h, hb, hx, Ne.symm hb]
    | some i =>
      have hx : x ∈ bs := by
        by_contra hn
        rw [ih.2 hn] at h
        cases h
      simp [memrchr, h, hx]

/-- At the last occurrence the string splits, and there is none behind. -/
theorem memrchr_eq_some_iff {x : UInt8} {bs : List UInt8} {i : ℕ} :
    memrchr x bs = some i ↔
      ∃ hi, ∃ lo : List UInt8, lo.length = i ∧ bs = lo ++ x :: hi ∧ x ∉ hi := by
  induction bs generalizing i with
  | nil => simp [memrchr]
  | cons b bs ih =>
    constructor
    · intro h
      cases hm : memrchr x bs with
      | none =>
        have hb : b = x ∧ 0 = i := by simpa [memrchr, hm] using h
        exact ⟨bs, [], hb.2, by rw [hb.1, List.nil_append], memrchr_eq_none_iff.1 hm⟩
      | some j =>
        have hj : j + 1 = i := by simpa [memrchr, hm] using h
        obtain ⟨hi, lo, hlo, rfl, hx⟩ := ih.1 hm
        exact ⟨hi, b :: lo, by simpa [hlo] using hj, rfl, hx⟩
    · rintro ⟨hi, lo, rfl, hbs, hx⟩
      cases lo with
      | nil =>
        obtain ⟨rfl, rfl⟩ := List.cons.inj hbs
        simp [memrchr, memrchr_eq_none_iff.2 hx]
      | cons c lo =>
        obtain ⟨rfl, rfl⟩ := List.cons.inj hbs
        have hm : memrchr x (lo ++ x :: hi) = some lo.length := ih.2 ⟨hi, lo, rfl, rfl, hx⟩
        simp [memrchr, hm]

namespace CallbackId

/-- Without a zero byte nothing is stripped. -/
theorem strip_of_not_mem {bs : List UInt8} (h : 0 ∉ bs) : strip bs = bs := by
  unfold strip
  rw [memrchr_eq_none_iff.2 h, Option.getD_none, List.take_length]

/-- The cut keeps what is below the last zero byte. -/
theorem strip_append {lo hi : List UInt8} (h : 0 ∉ hi) : strip (lo ++ 0 :: hi) = lo := by
  unfold strip
  rw [memrchr_eq_some_iff.2 ⟨hi, lo, rfl, rfl, h⟩, Option.getD_some, List.take_left]

/-- A byte string has no zero byte, or it splits at its last one. -/
theorem split_last_zero (bs : List UInt8) :
    0 ∉ bs ∨ ∃ lo hi : List UInt8, bs = lo ++ 0 :: hi ∧ 0 ∉ hi := by
  cases h : memrchr 0 bs with
  | none => exact Or.inl (memrchr_eq_none_iff.1 h)
  | some i =>
    obtain ⟨hi, lo, -, hbs, hx⟩ := memrchr_eq_some_iff.1 h
    exact Or.inr ⟨lo, hi, hbs, hx⟩

theorem length_strip_le (bs : List UInt8) : (strip bs).length ≤ bs.length := by
  unfold strip
  rw [List.length_take]
  exact Nat.min_le_right _ _

/-- An id whose last zero byte is `lo.length` survives exactly when nothing is above that
byte. -/
theorem survives_iff_of_split {id : UInt64} {lo hi : List UInt8}
    (h : toLeBytes id = lo ++ 0 :: hi) (hz : 0 ∉ hi) : Survives id ↔ hi = [] := by
  have hmem : (0 : UInt8) ∈ toLeBytes id := by rw [h]; simp
  have htop : (toLeBytes id).getLast? = some 0 ↔ id.toNat < 256 ^ 7 :=
    getLast?_leBytes_eq_zero_iff id.toNat_lt
  have hpow : (256 : ℕ) ^ 7 = 2 ^ 56 := by norm_num
  unfold Survives
  rw [← hpow, ← htop, or_iff_left (not_not.2 hmem), h]
  constructor
  · intro hl
    by_contra hne
    rw [List.getLast?_append_of_ne_nil _ (by simp), List.getLast?_cons, Option.some_inj] at hl
    cases hg : hi.getLast? with
    | none => exact hne (List.getLast?_eq_none_iff.1 hg)
    | some b =>
      rw [hg, Option.getD_some] at hl
      subst hl
      exact hz (List.mem_of_getLast? hg)
  · rintro rfl
    simp

/-- The encoding of at most eight bytes decodes to their value. -/
theorem decode_of_length_le (E : Engine) {bs : List UInt8} (hlen : bs.length ≤ 8) :
    decode E (E.encode bs) = some (fromLeBytes bs) := by
  have hsize : Engine.utf8Len (E.encode bs) ≤ 11 := by
    rw [E.utf8Len_encode]
    omega
  have hroom : ¬(List.replicate 9 (0 : UInt8)).length <
      Engine.decodedLenEstimate (Engine.utf8Len (E.encode bs)) := by
    rw [List.length_replicate, Engine.decodedLenEstimate]
    omega
  have hslice : E.decodeSlice (E.encode bs) (List.replicate 9 0) =
      some (bs.length, bs ++ List.replicate (9 - bs.length) 0) := by
    unfold Engine.decodeSlice
    rw [if_neg hroom, E.decode_encode, Option.map_some, List.drop_replicate]
  unfold decode
  rw [if_neg (by omega), hslice]
  simp only [gt_iff_lt, Nat.not_lt.2 hlen, if_false, Option.some_inj]
  rw [List.take_append, List.take_of_length_le hlen, List.take_replicate, fromLeBytes,
    fromLeBytes, (ofLeBytes_append_eq_iff _ _).2 fun b hb => List.eq_of_mem_replicate hb]

/-- What decoding reads back is the value of the bytes that were kept. -/
theorem decode_encode (E : Engine) (id : UInt64) :
    decode E (encode E (toLeBytes id)) = some (fromLeBytes (strip (toLeBytes id))) := by
  have hlen := length_strip_le (toLeBytes id)
  rw [length_toLeBytes] at hlen
  exact decode_of_length_le E hlen

/-- An id is decoded from its encoding exactly if it survives. -/
theorem decode_encode_eq_some_iff (E : Engine) (id : UInt64) :
    decode E (encode E (toLeBytes id)) = some id ↔ Survives id := by
  have hlen := length_strip_le (toLeBytes id)
  rw [length_toLeBytes] at hlen
  rw [decode_encode, Option.some_inj, fromLeBytes_eq_iff hlen, ← ofLeBytes_toLeBytes id]
  rcases split_last_zero (toLeBytes id) with hz | ⟨lo, hi, hsplit, hz⟩
  · simp [strip_of_not_mem hz, Survives, hz]
  · rw [survives_iff_of_split hsplit hz, hsplit, strip_append hz, eq_comm,
      ofLeBytes_append_eq_iff, List.forall_mem_cons]
    constructor
    · intro h
      by_contra hne
      obtain ⟨b, hb⟩ := List.exists_mem_of_ne_nil hi hne
      exact hz (h.2 b hb ▸ hb)
    · rintro rfl
      simp

/-- The bytes kept of an id that does not survive are kept of another id too : every
choice of nonzero bytes above the cut is cut. -/
theorem exists_same_strip {id : UInt64} (h : ¬Survives id) :
    ∃ id' ≠ id, strip (toLeBytes id') = strip (toLeBytes id) := by
  rcases split_last_zero (toLeBytes id) with hz | ⟨lo, hi, hsplit, hz⟩
  · exact absurd (Or.inr hz) h
  · have hne : hi ≠ [] := fun hnil => h ((survives_iff_of_split hsplit hz).2 hnil)
    have hlen : (lo ++ 0 :: hi).length = 8 := by rw [← hsplit, length_toLeBytes]
    -- Refill the bytes above the cut with ones, or with twos where they are ones.
    obtain ⟨x, hx0, hx⟩ : ∃ x : UInt8, x ≠ 0 ∧ List.replicate hi.length x ≠ hi := by
      by_cases h1 : List.replicate hi.length 1 = hi
      · refine ⟨2, by decide, fun h2 => ?_⟩
        rw [← h1, List.length_replicate, List.replicate_right_inj (by simpa using hne)] at h2
        exact absurd h2 (by decide)
      · exact ⟨1, by decide, h1⟩
    have hz' : (0 : UInt8) ∉ List.replicate hi.length x := fun hm =>
      hx0 (List.eq_of_mem_replicate hm).symm
    have hbytes : toLeBytes (fromLeBytes (lo ++ 0 :: List.replicate hi.length x)) =
        lo ++ 0 :: List.replicate hi.length x :=
      toLeBytes_fromLeBytes (by simpa using hlen)
    refine ⟨fromLeBytes (lo ++ 0 :: List.replicate hi.length x), fun heq => hx ?_, ?_⟩
    · have : lo ++ 0 :: List.replicate hi.length x = lo ++ 0 :: hi := by
        rw [← hbytes, heq, hsplit]
      simpa using this
    · rw [hbytes, hsplit, strip_append hz, strip_append hz']

/-- At least seven bytes are kept of an id that survives, at most six of one that does
not. -/
theorem survives_iff_length_strip (id : UInt64) :
    Survives id ↔ 7 ≤ (strip (toLeBytes id)).length := by
  rcases split_last_zero (toLeBytes id) with hz | ⟨lo, hi, hsplit, hz⟩
  · simp [Survives, hz, strip_of_not_mem hz]
  · have hlen : (lo ++ 0 :: hi).length = 8 := by rw [← hsplit, length_toLeBytes]
    rw [survives_iff_of_split hsplit hz, hsplit, strip_append hz, ← List.length_eq_zero_iff]
    simp only [List.length_append, List.length_cons] at hlen
    omega

/-- An id has its tail for itself exactly if it survives. -/
theorem tail_unique_iff (E : Engine) (id : UInt64) :
    (∀ id', id' ≠ id → encode E (toLeBytes id') ≠ encode E (toLeBytes id)) ↔ Survives id := by
  constructor
  · intro h
    by_contra hs
    obtain ⟨id', hne, hstrip⟩ := exists_same_strip hs
    exact h id' hne (congrArg E.encode hstrip)
  · intro hs id' hne heq
    have hstrip : strip (toLeBytes id') = strip (toLeBytes id) := E.encode_injective heq
    have hs' : Survives id' := by
      rw [survives_iff_length_strip, hstrip, ← survives_iff_length_strip]
      exact hs
    have h' := (decode_encode_eq_some_iff E id').2 hs'
    rw [heq, (decode_encode_eq_some_iff E id).2 hs, Option.some_inj] at h'
    exact hne h'.symm

/-- The callback tail of an id decodes to the id, and is no other id's tail, exactly for
the ids that survive the cut. -/
theorem decode_encode_iff (E : Engine) (id : UInt64) :
    (decode E (encode E (toLeBytes id)) = some id ↔ Survives id) ∧
      ((∀ id', id' ≠ id → encode E (toLeBytes id') ≠ encode E (toLeBytes id)) ↔ Survives id) :=
  ⟨decode_encode_eq_some_iff E id, tail_unique_iff E id⟩

/-- The tail of `2 ^ 56` does not decode to it, and is the tail of `2 ^ 57` too. -/
theorem decode_encode_two_pow_56 :
    decode urlSafeNoPad (encode urlSafeNoPad (toLeBytes 0x0100000000000000)) ≠
        some 0x0100000000000000 ∧
      encode urlSafeNoPad (toLeBytes 0x0100000000000000) =
        encode urlSafeNoPad (toLeBytes 0x0200000000000000) := by
  decide

/-! ## What decodes -/

/-- Nothing but encodings of at most eight bytes decodes. -/
theorem exists_of_decode {E : Engine} {s : List Char} {n : UInt64} (h : decode E s = some n) :
    ∃ bs : List UInt8, bs.length ≤ 8 ∧ E.encode bs = s := by
  unfold decode at h
  split at h
  · cases h
  · split at h
    · cases h
    · rename_i k buf hslice
      unfold Engine.decodeSlice at hslice
      split at hslice
      · cases hslice
      · obtain ⟨bs, hbs, hk⟩ := Option.map_eq_some_iff.1 hslice
        obtain ⟨rfl, -⟩ := Prod.mk.inj hk
        split at h
        · cases h
        · exact ⟨bs, by omega, (E.decode_eq_some_iff s bs).1 hbs⟩

/-- What is decoded is the encoding of up to eight bytes, filled up with zeroes. -/
theorem decode_eq_some_iff {E : Engine} {s : List Char} {n : UInt64} :
    decode E s = some n ↔ ∃ bs : List UInt8, bs.length ≤ 8 ∧ E.encode bs = s ∧
      n.toNat = ofLeBytes (bs ++ List.replicate (8 - bs.length) 0) := by
  have hpad : ∀ bs : List UInt8,
      ofLeBytes (bs ++ List.replicate (8 - bs.length) 0) = ofLeBytes bs :=
    fun bs => (ofLeBytes_append_eq_iff _ _).2 fun b hb => List.eq_of_mem_replicate hb
  constructor
  · intro h
    obtain ⟨bs, hlen, rfl⟩ := exists_of_decode h
    rw [decode_of_length_le E hlen, Option.some_inj, fromLeBytes_eq_iff hlen] at h
    exact ⟨bs, hlen, rfl, by rw [hpad, h]⟩
  · rintro ⟨bs, hlen, rfl, hn⟩
    rw [hpad] at hn
    rw [decode_of_length_le E hlen, (fromLeBytes_eq_iff hlen n).2 hn.symm]

/-- For every string : it decodes to the little-endian value of the bytes it encodes, filled
up to eight with zeroes, if these are at most eight, and otherwise to nothing. The buffer has
room for eleven symbols, and eight bytes to be read. -/
theorem decode_exact (E : Engine) (s : List Char) :
    (∀ n, decode E s = some n ↔ ∃ bs : List UInt8, bs.length ≤ 8 ∧ E.encode bs = s ∧
      n.toNat = ofLeBytes (bs ++ List.replicate (8 - bs.length) 0)) ∧
    (decode E s = none ↔ ∀ bs : List UInt8, bs.length ≤ 8 → E.encode bs ≠ s) ∧
    (s.length ≤ 11 → (∀ c ∈ s, c ∈ alphabet) → Engine.utf8Len s ≤ 11 ∧
      Engine.decodedLenEstimate (Engine.utf8Len s) ≤ (List.replicate 9 (0 : UInt8)).length) ∧
    ∀ n buf, E.decodeSlice s (List.replicate 9 0) = some (n, buf) → (buf.take 8).length = 8 := by
  refine ⟨fun n => decode_eq_some_iff, ?_, fun hlen hs => ?_, fun n buf h => ?_⟩
  · constructor
    · intro h bs hlen hbs
      rw [← hbs, decode_of_length_le E hlen] at h
      cases h
    · intro h
      cases hd : decode E s with
      | none => rfl
      | some n =>
        obtain ⟨bs, hlen, hbs⟩ := exists_of_decode hd
        exact absurd hbs (h bs hlen)
  · rw [Engine.utf8Len_of_alphabet hs, List.length_replicate, Engine.decodedLenEstimate]
    omega
  · unfold Engine.decodeSlice at h
    split at h
    · cases h
    · obtain ⟨bs, -, hbuf⟩ := Option.map_eq_some_iff.1 h
      obtain ⟨-, rfl⟩ := Prod.mk.inj hbuf
      rw [List.length_take, List.length_append, List.length_drop, List.length_replicate]
      omega

end CallbackId

end Websub
