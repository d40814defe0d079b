import Mathlib

/-!
# Layouts of packed structures

A layout of a type gives each of its values exactly one string of bytes of a
fixed size, and each such string exactly one value. Layouts of packed
structures are put together from those of bytes and little-endian words.
-/

/-- A bijection between `α` and the byte strings of length `size`. -/
structure Layout (α : Type) where
  size : ℕ
  encode : α → List (BitVec 8)
  decode : List (BitVec 8) → α
  length_encode : ∀ a, (encode a).length = size
  decode_encode : ∀ a, decode (encode a) = a
  encode_decode : ∀ bs, bs.length = size → encode (decode bs) = bs

namespace Layout

variable {α β : Type}

/-- A single byte. -/
def byte : Layout (BitVec 8) where
  size := 1
  encode := fun b => [b]
  decode := fun bs => bs.getD 0 0
  length_encode := fun _ => rfl
  decode_encode := fun _ => rfl
  encode_decode := by
    intro bs h
    obtain ⟨b, rfl⟩ := List.length_eq_one_iff.1 h
    rfl

/-- A 16-bit word, the low byte first. -/
def half : Layout (BitVec 16) where
  size := 2
  encode := fun w => [w.extractLsb' 0 8, w.extractLsb' 8 8]
  decode := fun bs => bs.getD 1 0 ++ bs.getD 0 0
  length_encode := fun _ => rfl
  decode_encode := by
    intro w
    show w.extractLsb' 8 8 ++ w.extractLsb' 0 8 = w
    rw [BitVec.extractLsb'_append_extractLsb'_eq_extractLsb' (by rfl)]
    exact BitVec.extractLsb'_eq_self
  encode_decode := by
    intro bs h
    obtain ⟨b0, b1, rfl⟩ := List.length_eq_two.1 h
    have h0 : (b1 ++ b0).extractLsb' 0 8 = b0 := by
      rw [BitVec.extractLsb'_append_eq_of_add_le (by omega), BitVec.extractLsb'_eq_self]
    have h1 : (b1 ++ b0).extractLsb' 8 8 = b1 := by
      rw [BitVec.extractLsb'_append_eq_of_le (by omega)]
      exact BitVec.extractLsb'_eq_self
    simp only [List.getD_cons_zero, List.getD_cons_succ, h0, h1]

/-- A 32-bit word, the low byte first. -/
def word : Layout (BitVec 32) where
  size := 4
  encode := fun w =>
    [w.extractLsb' 0 8, w.extractLsb' 8 8, w.extractLsb' 16 8, w.extractLsb' 24 8]
  decode := fun bs => (bs.getD 3 0 ++ bs.getD 2 0) ++ (bs.getD 1 0 ++ bs.getD 0 0)
  length_encode := fun _ => rfl
  decode_encode := by
    intro w
    show (w.extractLsb' 24 8 ++ w.extractLsb' 16 8) ++ (w.extractLsb' 8 8 ++ w.extractLsb' 0 8) = w
    rw [BitVec.extractLsb'_append_extractLsb'_eq_extractLsb' (by rfl),
      BitVec.extractLsb'_append_extractLsb'_eq_extractLsb' (by rfl),
      BitVec.extractLsb'_append_extractLsb'_eq_extractLsb' (by rfl)]
    exact BitVec.extractLsb'_eq_self
  encode_decode := by
    intro bs h
    obtain ⟨b0, b1, b2, b3, rfl⟩ : ∃ b0 b1 b2 b3, bs = [b0, b1, b2, b3] := by
      rcases bs with - | ⟨b0, - | ⟨b1, - | ⟨b2, - | ⟨b3, - | ⟨b4, bs⟩⟩⟩⟩⟩
      all_goals first | exact ⟨_, _, _, _, rfl⟩ | (simp at h)
    have h0 : ((b3 ++ b2) ++ (b1 ++ b0)).extractLsb' 0 8 = b0 := by
      rw [BitVec.extractLsb'_append_eq_of_add_le (by omega),
        BitVec.extractLsb'_append_eq_of_add_le (by omega), BitVec.extractLsb'_eq_self]
    have h1 : ((b3 ++ b2) ++ (b1 ++ b0)).extractLsb' 8 8 = b1 := by
      rw [BitVec.extractLsb'_append_eq_of_add_le (by omega),
        BitVec.extractLsb'_append_eq_of_le (by omega)]
      exact BitVec.extractLsb'_eq_self
    have h2 : ((b3 ++ b2) ++ (b1 ++ b0)).extractLsb' 16 8 = b2 := by
      rw [BitVec.extractLsb'_append_eq_of_le (by omega),
        BitVec.extractLsb'_append_eq_of_add_le (by omega)]
      exact BitVec.extractLsb'_eq_self
    have h3 : ((b3 ++ b2) ++ (b1 ++ b0)).extractLsb' 24 8 = b3 := by
      rw [BitVec.extractLsb'_append_eq_of_le (by omega),
        BitVec.extractLsb'_append_eq_of_le (by omega)]
      exact BitVec.extractLsb'_eq_self
    simp only [List.getD_cons_zero, List.getD_cons_succ, h0, h1, h2, h3]

/-- Two fields, one after the other. -/
def pair (l : Layout α) (r : Layout β) : Layout (α × β) where
  size := l.size + r.size
  encode := fun p => l.encode p.1 ++ r.encode p.2
  decode := fun bs => (l.decode (bs.take l.size), r.decode (bs.drop l.size))
  length_encode := fun p => by rw [List.length_append, l.length_encode, r.length_encode]
  decode_encode := by
    intro p
    rw [← l.length_encode p.1, List.take_left, List.drop_left, l.decode_encode, r.decode_encode]
  encode_decode := by
    intro bs h
    rw [l.encode_decode, r.encode_decode, List.take_append_drop]
    · rw [List.length_drop]
      omega
    · rw [List.length_take]
      omega

/-- The same bytes under another type. -/
def iso (l : Layout α) (e : α ≃ β) : Layout β where
  size := l.size
  encode := fun b => l.encode (e.symm b)
  decode := fun bs => e (l.decode bs)
  length_encode := fun b => l.length_encode _
  decode_encode := fun b => by rw [l.decode_encode, e.apply_symm_apply]
  encode_decode := fun bs h => by rw [e.symm_apply_apply, l.encode_decode bs h]

/-- No bytes. -/
def empty : Layout (Fin 0 → α) where
  size := 0
  encode := fun _ => []
  decode := fun _ i => i.elim0
  length_encode := fun _ => rfl
  decode_encode := fun _ => funext fun i => i.elim0
  encode_decode := fun _ h => (List.length_eq_zero_iff.1 h).symm

/-- An array of `n` elements. -/
def array (l : Layout α) : (n : ℕ) → Layout (Fin n → α)
  | 0 => empty
  | n + 1 => (l.pair (array l n)).iso (Fin.consEquiv fun _ => α)

theorem size_array (l : Layout α) (n : ℕ) : (l.array n).size = n * l.size := by
  induction n with
  | zero => exact (Nat.zero_mul _).symm
  | succ n ih =>
    show l.size + (l.array n).size = (n + 1) * l.size
    rw [ih, Nat.succ_mul, Nat.add_comm]

/-- The elements of an array are decoded one after the other. -/
theorem decode_array (l : Layout α) {n : ℕ} (bs : List (BitVec 8)) (i : Fin n) :
    (l.array n).decode bs i = l.decode ((bs.drop (i * l.size)).take l.size) := by
  induction n generalizing bs with
  | zero => exact i.elim0
  | succ n ih =>
    cases i using Fin.cases with
    | zero =>
      show l.decode (bs.take l.size) = l.decode ((bs.drop (0 * l.size)).take l.size)
      rw [Nat.zero_mul, List.drop_zero]
    | succ i =>
      show (l.array n).decode (bs.drop l.size) i = _
      rw [ih, List.drop_drop, Fin.val_succ, Nat.succ_mul, Nat.add_comm]

end Layout
