import Mathlib

/-!
# Rings of the last entries

A ring has `N` slots, and the entry number `c` is put into the slot `c % N`.

* `holds_push_iff`: a ring goes on holding the last entries if and only if what is put
  into the next slot is the next entry.
* `Holds.newest_first`: read backwards from the newest one, the slots are the last
  entries.
-/

namespace Ring

variable {α : Type} {N : ℕ}

/-- The last `N` entries of `xs` are in their slots. -/
def Holds (slots : Fin N → α) (xs : List α) : Prop :=
  ∀ (k : Fin N) (c : ℕ) (x : α), xs[c]? = some x → xs.length ≤ c + N → c % N = k → slots k = x

theorem holds_nil (slots : Fin N → α) : Holds slots [] := by
  intro k c x h
  cases h

/-- The newest entry takes the slot of the one that is now `N` entries back. -/
theorem holds_push_iff {slots : Fin N → α} {xs : List α} (h : Holds slots xs) {k : Fin N}
    (hk : xs.length % N = k) {slots' : Fin N → α} (hother : ∀ j, j ≠ k → slots' j = slots j)
    (x : α) : Holds slots' (xs ++ [x]) ↔ slots' k = x := by
  constructor
  · intro h'
    refine h' k xs.length x (by simp) ?_ hk
    rw [List.length_append, List.length_singleton]
    have := k.pos
    omega
  · intro hx j c y hc hlen hj
    rw [List.length_append, List.length_singleton] at hlen
    obtain hlt | rfl | hgt := Nat.lt_trichotomy c xs.length
    · have hjk : j ≠ k := by
        -- The entry is less than `N` entries in front of the newest one.
        rintro rfl
        have hmod : xs.length - c = N * ((xs.length - c) / N) :=
          (Nat.mul_div_cancel' ((Nat.modEq_iff_dvd' hlt.le).1 (hj.trans hk.symm))).symm
        have hpos : 0 < (xs.length - c) / N := by
          by_contra hzero
          rw [Nat.eq_zero_of_not_pos hzero] at hmod
          omega
        have := Nat.le_mul_of_pos_right N hpos
        omega
      rw [hother j hjk]
      rw [List.getElem?_append_left hlt] at hc
      exact h j c y hc (by omega) hj
    · rw [List.getElem?_concat_length] at hc
      obtain rfl : j = k := Fin.ext (hj.symm.trans hk)
      rw [hx]
      exact Option.some.inj hc
    · rw [List.getElem?_eq_none (by simp; omega)] at hc
      cases hc

/-- The slots read backwards from the newest entry. -/
theorem Holds.newest_first [NeZero N] {slots : Fin N → α} {xs : List α} (h : Holds slots xs) :
    (List.range (min xs.length N)).map
        (fun i => slots (Fin.ofNat N (xs.length - 1 - i))) = xs.reverse.take N := by
  apply List.ext_getElem
  · simp [Nat.min_comm]
  · intro i h1 h2
    simp only [List.length_map, List.length_range] at h1
    rw [List.getElem_map, List.getElem_range, List.getElem_take, List.getElem_reverse]
    exact h _ _ _ (List.getElem?_eq_getElem (by omega)) (by omega) (by simp [Fin.ofNat])

end Ring
