import Mathlib

/-!
# Little-endian byte strings

`leBytes k n` are the `k` low bytes of `n`, the least significant first, and
`ofLeBytes` reads a byte string of any length back. They are inverse to each other on
numbers below `256 ^ k` and strings of length `k` (`ofLeBytes_leBytes`,
`leBytes_ofLeBytes`). Zero bytes at the end of a string do not change its value, and
they are the only ones that do not (`ofLeBytes_append_eq_iff`).
-/

namespace LittleEndian

/-- The `k` low bytes of `n`, the least significant first. -/
def leBytes : ℕ → ℕ → List UInt8
  | 0, _ => []
  | k + 1, n => UInt8.ofNat n :: leBytes k (n / 256)

/-- The number a byte string denotes, its first byte the least significant. -/
def ofLeBytes : List UInt8 → ℕ
  | [] => 0
  | b :: bs => b.toNat + 256 * ofLeBytes bs

@[simp] theorem ofLeBytes_nil : ofLeBytes [] = 0 :=
  rfl

@[simp] theorem ofLeBytes_cons (b : UInt8) (bs : List UInt8) :
    ofLeBytes (b :: bs) = b.toNat + 256 * ofLeBytes bs :=
  rfl

@[simp] theorem length_leBytes : ∀ k n : ℕ, (leBytes k n).length = k
  | 0, _ => rfl
  | k + 1, n => by simp [leBytes, length_leBytes k]

theorem ofLeBytes_leBytes : ∀ k n : ℕ, ofLeBytes (leBytes k n) = n % 256 ^ k
  | 0, n => by simp [leBytes, Nat.mod_one]
  | k + 1, n => by
    have ih := ofLeBytes_leBytes k (n / 256)
    unfold leBytes
    rw [ofLeBytes_cons, ih, pow_succ', Nat.mod_mul, UInt8.toNat_ofNat']

theorem ofLeBytes_lt : ∀ bs : List UInt8, ofLeBytes bs < 256 ^ bs.length
  | [] => by simp
  | b :: bs => by
    have ih := ofLeBytes_lt bs
    have hb := b.toNat_lt
    rw [ofLeBytes_cons, List.length_cons, pow_succ']
    omega

theorem leBytes_ofLeBytes : ∀ bs : List UInt8, leBytes bs.length (ofLeBytes bs) = bs
  | [] => rfl
  | b :: bs => by
    have hb := b.toNat_lt
    have hdiv : (b.toNat + 256 * ofLeBytes bs) / 256 = ofLeBytes bs := by omega
    have hmod : UInt8.ofNat (b.toNat + 256 * ofLeBytes bs) = b := by
      apply UInt8.toNat_inj.1
      rw [UInt8.toNat_ofNat']
      omega
    rw [List.length_cons, leBytes, ofLeBytes_cons, hdiv, hmod, leBytes_ofLeBytes bs]

theorem ofLeBytes_append (as bs : List UInt8) :
    ofLeBytes (as ++ bs) = ofLeBytes as + 256 ^ as.length * ofLeBytes bs := by
  induction as with
  | nil => simp
  | cons a as ih =>
    rw [List.cons_append, ofLeBytes_cons, ofLeBytes_cons, ih, List.length_cons, pow_succ']
    ring

/-- A byte string denotes zero exactly when all its bytes are zero. -/
theorem ofLeBytes_eq_zero_iff (bs : List UInt8) : ofLeBytes bs = 0 ↔ ∀ b ∈ bs, b = 0 := by
  induction bs with
  | nil => simp
  | cons b bs ih =>
    rw [ofLeBytes_cons, List.forall_mem_cons, ← ih, ← UInt8.toNat_inj, UInt8.toNat_zero]
    omega

/-- Cutting the end of a byte string off keeps its value exactly when only zero bytes
are cut. -/
theorem ofLeBytes_append_eq_iff (as bs : List UInt8) :
    ofLeBytes (as ++ bs) = ofLeBytes as ↔ ∀ b ∈ bs, b = 0 := by
  have hpos : 0 < 256 ^ as.length := by positivity
  rw [ofLeBytes_append, ← ofLeBytes_eq_zero_iff, Nat.add_eq_left, Nat.mul_eq_zero]
  constructor
  · rintro (h | h)
    · omega
    · exact h
  · exact Or.inr

/-- The last byte of a `k + 1`-byte number is zero exactly when the number fits in `k`
bytes. -/
theorem getLast?_leBytes_eq_zero_iff :
    ∀ {k n : ℕ}, n < 256 ^ (k + 1) → ((leBytes (k + 1) n).getLast? = some 0 ↔ n < 256 ^ k)
  | 0, n, h => by
    simp only [leBytes, List.getLast?_singleton, Option.some_inj, ← UInt8.toNat_inj,
      UInt8.toNat_ofNat', UInt8.toNat_zero]
    omega
  | k + 1, n, h => by
    have hdiv : n / 256 < 256 ^ (k + 1) := by
      rw [Nat.div_lt_iff_lt_mul (by norm_num)]
      simpa [pow_succ] using h
    have ih := getLast?_leBytes_eq_zero_iff (k := k) hdiv
    rw [leBytes, leBytes, List.getLast?_cons_cons, ← leBytes, ih,
      Nat.div_lt_iff_lt_mul (by norm_num), ← pow_succ]

end LittleEndian
