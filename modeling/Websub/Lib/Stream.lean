import Mathlib

/-!
# Buffers and incremental codes

Two interfaces to bytes that come in pieces. A `Buf` hands out its bytes chunk by chunk, cut
in any way, and a `Mac` absorbs bytes piece by piece and then gives a code. What such a type
documents about itself is a field : the bytes that a buffer is about to hand out, and the
bytes that a state has absorbed. The chunks of a buffer, absorbed one after the other, are
the bytes of the buffer (`Buf.chunk_append`, `Mac.absorbed_update`).

`segments` is a buffer that is cut in the way its list is, and `Mac.ofHash` a code that keeps
what it has absorbed.
-/

namespace Streams

/-! ## Buffers -/

/-- Bytes that are handed out in chunks. -/
structure Buf (β : Type) where
  /-- The number of bytes left. -/
  remaining : β → ℕ
  /-- The next bytes, not necessarily all of them. -/
  chunk : β → List UInt8
  /-- Skip a number of bytes. -/
  advance : β → ℕ → β
  /-- The bytes left. -/
  bytes : β → List UInt8
  remaining_eq : ∀ b, remaining b = (bytes b).length
  chunk_prefix : ∀ b, chunk b <+: bytes b
  chunk_ne_nil : ∀ b, 0 < remaining b → chunk b ≠ []
  bytes_advance : ∀ b n, n ≤ remaining b → bytes (advance b n) = (bytes b).drop n

namespace Buf

variable {β : Type} (buf : Buf β) (b : β)

/-- The bytes are the chunk, and the bytes left behind it. -/
theorem chunk_append :
    buf.chunk b ++ buf.bytes (buf.advance b (buf.chunk b).length) = buf.bytes b := by
  obtain ⟨rest, hrest⟩ := buf.chunk_prefix b
  have hle : (buf.chunk b).length ≤ buf.remaining b := by
    rw [buf.remaining_eq]
    exact (buf.chunk_prefix b).length_le
  rw [buf.bytes_advance b _ hle, ← hrest, List.drop_left]

/-- A chunk of that length is all there is. -/
theorem chunk_eq_bytes (h : (buf.chunk b).length = buf.remaining b) :
    buf.chunk b = buf.bytes b :=
  (buf.chunk_prefix b).eq_of_length (h.trans (buf.remaining_eq b))

theorem bytes_eq_nil (h : buf.remaining b = 0) : buf.bytes b = [] := by
  rw [← List.length_eq_zero_iff, ← buf.remaining_eq, h]

/-- Skipping a chunk leaves fewer bytes, if any were left. -/
theorem remaining_advance_lt (h : buf.remaining (buf.advance b (buf.chunk b).length) ≠ 0) :
    buf.remaining (buf.advance b (buf.chunk b).length) < buf.remaining b := by
  have hlen := congrArg List.length (buf.chunk_append b)
  rw [List.length_append, ← buf.remaining_eq, ← buf.remaining_eq] at hlen
  have hne := buf.chunk_ne_nil b (by omega)
  have := List.length_pos_iff.2 hne
  omega

end Buf

/-- Skip bytes of a list of segments. -/
def dropBytes : List (List UInt8) → ℕ → List (List UInt8)
  | [], _ => []
  | s :: b, n => if n < s.length then s.drop n :: b else dropBytes b (n - s.length)

theorem flatten_dropBytes (b : List (List UInt8)) (n : ℕ) :
    (dropBytes b n).flatten = b.flatten.drop n := by
  induction b generalizing n with
  | nil => simp [dropBytes]
  | cons s b ih =>
    unfold dropBytes
    split
    · rename_i h
      rw [List.flatten_cons, List.flatten_cons, List.drop_append_of_le_length h.le]
    · rename_i h
      rw [ih, List.flatten_cons, List.drop_append, List.drop_eq_nil_of_le (not_lt.1 h),
        List.nil_append]

/-- A buffer cut into segments, that hands out the first that is not empty. -/
def segments : Buf (List (List UInt8)) where
  remaining b := b.flatten.length
  chunk b := (b.find? (· ≠ [])).getD []
  advance := dropBytes
  bytes b := b.flatten
  remaining_eq _ := rfl
  chunk_prefix b := by
    induction b with
    | nil => exact List.prefix_rfl
    | cons s b ih =>
      by_cases hs : s = []
      · simpa [hs] using ih
      · simp [hs]
  chunk_ne_nil b h := by
    obtain ⟨c, hc⟩ := List.exists_mem_of_length_pos h
    obtain ⟨s, hs, hcs⟩ := List.mem_flatten.1 hc
    cases hf : b.find? (· ≠ []) with
    | none =>
      have := List.find?_eq_none.1 hf s hs
      simp only [ne_eq, decide_eq_true_eq, not_not] at this
      rw [this] at hcs
      cases hcs
    | some t => simpa using List.find?_some hf
  bytes_advance b n _ := flatten_dropBytes b n

/-! ## Codes -/

/-- A message authentication code of `n` bytes, computed piece by piece. -/
structure Mac (n : ℕ) where
  State : Type
  new : (key : List UInt8) → State
  update : State → List UInt8 → State
  /-- The code of what was absorbed, and the state to start over with. -/
  finalizeReset : State → Vector UInt8 n × State
  /-- The code of a message. -/
  code : (key message : List UInt8) → Vector UInt8 n
  /-- The state has absorbed the message. -/
  Absorbed : (key message : List UInt8) → State → Prop
  absorbed_new : ∀ key, Absorbed key [] (new key)
  absorbed_update : ∀ key message s bytes, Absorbed key message s →
    Absorbed key (message ++ bytes) (update s bytes)
  finalizeReset_fst : ∀ key message s, Absorbed key message s →
    (finalizeReset s).1 = code key message
  absorbed_finalizeReset : ∀ key message s, Absorbed key message s →
    Absorbed key [] (finalizeReset s).2

/-- A code that keeps the key and what it has absorbed. -/
def Mac.ofHash {n : ℕ} (code : (key message : List UInt8) → Vector UInt8 n) : Mac n where
  State := List UInt8 × List UInt8
  new key := (key, [])
  update s bytes := (s.1, s.2 ++ bytes)
  finalizeReset s := (code s.1 s.2, (s.1, []))
  code := code
  Absorbed key message s := s = (key, message)
  absorbed_new _ := rfl
  absorbed_update _ _ _ _ h := by rw [h]
  finalizeReset_fst _ _ _ h := by rw [h]
  absorbed_finalizeReset _ _ _ h := by rw [h]

end Streams
