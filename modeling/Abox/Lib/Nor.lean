import Mathlib

/-!
# NOR flash memory

A memory cell holds a byte. Programming a byte can only clear bits; erasing a
range sets all of its bytes to `0xFF`.

* `read_programs_of_erased`: bytes programmed into an erased range read back.
* `programs_of_disjoint`, `erase_of_disjoint`: everything else is unchanged.
* `programs_eq_iff`: what was programmed reads back exactly when it has no bit
  that had been cleared before.
-/

namespace Nor

abbrev Mem := ℕ → BitVec 8

/-- The `n` bytes from `a` on. -/
def read (m : Mem) (a n : ℕ) : List (BitVec 8) := (List.range n).map fun k => m (a + k)

def program (m : Mem) (a : ℕ) (b : BitVec 8) : Mem := Function.update m a (m a &&& b)

/-- The bytes `bs` are programmed one after the other, from `a` on. -/
def programs (m : Mem) (a : ℕ) : List (BitVec 8) → Mem
  | [] => m
  | b :: bs => programs (program m a b) (a + 1) bs

/-- The `n` bytes from `a` on are erased. -/
def erase (m : Mem) (a n : ℕ) : Mem := fun k => if a ≤ k ∧ k < a + n then 0xFF else m k

/-- The `n` bytes from `a` on are erased. -/
def Erased (m : Mem) (a n : ℕ) : Prop := ∀ k, a ≤ k → k < a + n → m k = 0xFF

/-! ## Reading -/

@[simp] theorem length_read (m : Mem) (a n : ℕ) : (read m a n).length = n := by simp [read]

theorem getElem_read {m : Mem} {a n k : ℕ} (h : k < (read m a n).length) :
    (read m a n)[k] = m (a + k) := by simp [read]

theorem read_congr {m m' : Mem} {a n : ℕ} (h : ∀ k, a ≤ k → k < a + n → m' k = m k) :
    read m' a n = read m a n := by
  apply List.map_congr_left
  intro k hk
  have := List.mem_range.1 hk
  exact h _ (by omega) (by omega)

theorem read_eq_iff {m : Mem} {a : ℕ} {bs : List (BitVec 8)} :
    read m a bs.length = bs ↔ ∀ k (h : k < bs.length), m (a + k) = bs[k] := by
  constructor
  · intro h k hk
    have := getElem_read (m := m) (a := a) (n := bs.length) (k := k) (by simpa using hk)
    rw [← this]
    congr 1
  · intro h
    apply List.ext_getElem (by simp)
    intro k h1 h2
    rw [getElem_read]
    exact h k h2

theorem read_append (m : Mem) (a i j : ℕ) : read m a (i + j) = read m a i ++ read m (a + i) j := by
  unfold read
  rw [List.range_add, List.map_append, List.map_map]
  congr 1
  apply List.map_congr_left
  intro k _
  show m (a + (i + k)) = m (a + i + k)
  rw [Nat.add_assoc]

/-! ## Programming and erasing -/

/-- Programming clears the bits that are zero in the data. -/
theorem programs_apply (m : Mem) (a : ℕ) (bs : List (BitVec 8)) (k : ℕ) :
    programs m a bs k = if h : a ≤ k ∧ k - a < bs.length then m k &&& bs[k - a] else m k := by
  induction bs generalizing m a with
  | nil => simp [programs]
  | cons b bs ih =>
    rw [programs, ih]
    by_cases hk : k = a
    · subst hk
      simp [program]
    · have hm : program m a b k = m k := Function.update_of_ne hk ..
      rw [hm]
      by_cases h : a + 1 ≤ k ∧ k - (a + 1) < bs.length
      · obtain ⟨j, rfl⟩ : ∃ j, k = a + 1 + j := ⟨k - (a + 1), by omega⟩
        have hlt : a ≤ a + 1 + j ∧ a + 1 + j - a < (b :: bs).length := by
          simp only [List.length_cons]
          omega
        rw [dif_pos h, dif_pos hlt]
        congr 1
        have h1 : a + 1 + j - (a + 1) = j := by omega
        have h2 : a + 1 + j - a = j + 1 := by omega
        simp only [h1, h2, List.getElem_cons_succ]
      · have hlt : ¬ (a ≤ k ∧ k - a < (b :: bs).length) := by
          simp only [List.length_cons]
          omega
        rw [dif_neg h, dif_neg hlt]

theorem programs_of_disjoint {m : Mem} {a k : ℕ} {bs : List (BitVec 8)}
    (h : k < a ∨ a + bs.length ≤ k) : programs m a bs k = m k := by
  rw [programs_apply, dif_neg]
  omega

theorem programs_of_lt {m : Mem} {a k : ℕ} {bs : List (BitVec 8)} (h : k < bs.length) :
    programs m a bs (a + k) = m (a + k) &&& bs[k] := by
  rw [programs_apply, dif_pos ⟨by omega, by omega⟩]
  simp only [Nat.add_sub_cancel_left]

theorem programs_append (m : Mem) (a : ℕ) (bs cs : List (BitVec 8)) :
    programs m a (bs ++ cs) = programs (programs m a bs) (a + bs.length) cs := by
  induction bs generalizing m a with
  | nil => rfl
  | cons b bs ih =>
    rw [List.cons_append, programs, ih, programs, List.length_cons]
    congr 1
    omega

/-- What was programmed reads back exactly when none of its bits had been
    cleared before. -/
theorem programs_eq_iff {m : Mem} {a : ℕ} {bs : List (BitVec 8)} :
    read (programs m a bs) a bs.length = bs ↔
      ∀ k (h : k < bs.length), m (a + k) &&& bs[k] = bs[k] := by
  rw [read_eq_iff]
  constructor
  · intro h k hk
    rw [← programs_of_lt hk]
    exact h k hk
  · intro h k hk
    rw [programs_of_lt hk]
    exact h k hk

theorem and_erased (b : BitVec 8) : (0xFF : BitVec 8) &&& b = b := BitVec.allOnes_and

theorem read_programs_of_erased {m : Mem} {a : ℕ} {bs : List (BitVec 8)}
    (h : Erased m a bs.length) : read (programs m a bs) a bs.length = bs := by
  rw [programs_eq_iff]
  intro k hk
  rw [h _ (by omega) (by omega), and_erased]

theorem Erased.mono {m : Mem} {a n b k : ℕ} (h : Erased m a n) (hab : a ≤ b)
    (hk : b + k ≤ a + n) : Erased m b k :=
  fun j h1 h2 => h j (by omega) (by omega)

theorem Erased.programs {m : Mem} {a n b : ℕ} {bs : List (BitVec 8)} (h : Erased m a n)
    (hb : b + bs.length ≤ a ∨ a + n ≤ b) : Erased (programs m b bs) a n := by
  intro k h1 h2
  rw [programs_of_disjoint (by omega)]
  exact h k h1 h2

theorem erase_of_mem {m : Mem} {a n k : ℕ} (h : a ≤ k ∧ k < a + n) : erase m a n k = 0xFF :=
  if_pos h

theorem erase_of_disjoint {m : Mem} {a n k : ℕ} (h : k < a ∨ a + n ≤ k) :
    erase m a n k = m k := if_neg (by omega)

theorem erased_erase (m : Mem) (a n : ℕ) : Erased (erase m a n) a n :=
  fun _ h1 h2 => erase_of_mem ⟨h1, h2⟩

theorem Erased.erase {m : Mem} {a n : ℕ} (h : Erased m a n) (b k : ℕ) :
    Erased (erase m b k) a n := by
  intro j h1 h2
  unfold Nor.erase
  split_ifs
  · rfl
  · exact h j h1 h2

/-- An erased range grows by the range behind it. -/
theorem Erased.extend {m : Mem} {a n : ℕ} (h : Erased m a n) (k : ℕ) :
    Erased (Nor.erase m (a + n) k) a (n + k) := by
  intro j h1 h2
  by_cases hj : j < a + n
  · rw [erase_of_disjoint (Or.inl hj)]
    exact h j h1 hj
  · exact erase_of_mem ⟨by omega, by omega⟩

/-- `m'` is `m` with some bits cleared. -/
def Cleared (m m' : Mem) : Prop := ∀ k, m k &&& m' k = m' k

theorem Cleared.refl (m : Mem) : Cleared m m := fun _ => BitVec.and_self

theorem Cleared.trans {m m' m'' : Mem} (h : Cleared m m') (h' : Cleared m' m'') :
    Cleared m m'' := by
  intro k
  rw [← h' k, ← BitVec.and_assoc, h k]

theorem cleared_programs (m : Mem) (a : ℕ) (bs : List (BitVec 8)) :
    Cleared m (programs m a bs) := by
  intro k
  rw [programs_apply]
  split_ifs
  · rw [← BitVec.and_assoc, BitVec.and_self]
  · exact BitVec.and_self

theorem read_programs_of_disjoint {m : Mem} {a n b : ℕ} {bs : List (BitVec 8)}
    (h : b + bs.length ≤ a ∨ a + n ≤ b) : read (programs m b bs) a n = read m a n := by
  apply read_congr
  intro k h1 h2
  exact programs_of_disjoint (by omega)

end Nor
