import Mathlib

/-!
# Numbers as text

A number is printed in a radix of at most 36 by the digits `0`–`9` and `A`–`Z`, and
read with them and with `a`–`z`. The digits come out in the reverse order and are
turned round in the place where they stand.

* `readNat_map_digitChar`: what a string of digits is read as, and `readNat_chars`:
  a number that is printed is read.
* `foldl_swap`: swapping the ends, then what lies between them, reverses a piece of
  a list.
-/

namespace Numerals

/-! ## Digits -/

/-- The digits of a number from the last one on, at least one. -/
def digitsOf (radix n : ℕ) : List ℕ := if n = 0 then [0] else Nat.digits radix n

theorem digitsOf_ne_nil (radix n : ℕ) : digitsOf radix n ≠ [] := by
  unfold digitsOf
  split_ifs with h
  · exact List.cons_ne_nil _ _
  · exact Nat.digits_ne_nil_iff_ne_zero.2 h

theorem digitsOf_lt {radix n d : ℕ} (hr : 1 < radix) (hd : d ∈ digitsOf radix n) : d < radix := by
  unfold digitsOf at hd
  split_ifs at hd with h
  · rw [List.mem_singleton.1 hd]
    omega
  · exact Nat.digits_lt_base hr hd

/-- The last digit and the others. -/
theorem digitsOf_eq {radix : ℕ} (hr : 1 < radix) (n : ℕ) :
    digitsOf radix n = n % radix :: if n / radix = 0 then [] else digitsOf radix (n / radix) := by
  unfold digitsOf
  by_cases h : n = 0
  · simp [h]
  · rw [if_neg h, Nat.digits_eq_cons_digits_div hr h]
    split_ifs with hdiv
    · rw [hdiv, Nat.digits_zero]
    · rfl

theorem ofDigits_digitsOf (radix n : ℕ) : Nat.ofDigits radix (digitsOf radix n) = n := by
  unfold digitsOf
  split_ifs with h
  · simp [h]
  · exact Nat.ofDigits_digits radix n

theorem length_digitsOf_le {radix n k : ℕ} (hr : 1 < radix) (h : n < radix ^ (k + 1)) :
    (digitsOf radix n).length ≤ k + 1 := by
  unfold digitsOf
  split_ifs
  · exact Nat.le_add_left 1 k
  · exact (Nat.digits_length_le_iff hr _).2 h

/-- The first digit of a number with several digits is not zero. -/
theorem getLast_digitsOf {radix n : ℕ} (h : 1 < (digitsOf radix n).length) :
    (digitsOf radix n).getLast (digitsOf_ne_nil radix n) ≠ 0 := by
  have hn : n ≠ 0 := by
    rintro rfl
    exact absurd h (by simp [digitsOf])
  simp only [digitsOf, if_neg hn]
  exact Nat.getLast_digit_ne_zero radix hn

/-! ## Printing and reading -/

/-- The character of a digit. -/
def digitChar (d : ℕ) : BitVec 8 := BitVec.ofNat 8 (if d < 10 then 0x30 + d else 0x37 + d)

/-- The digit that a character stands for. -/
def digitValue (b : BitVec 8) : Option ℕ :=
  if 0x30 ≤ b.toNat ∧ b.toNat ≤ 0x39 then some (b.toNat - 0x30)
  else if 0x41 ≤ b.toNat ∧ b.toNat ≤ 0x5A then some (b.toNat - 0x37)
  else if 0x61 ≤ b.toNat ∧ b.toNat ≤ 0x7A then some (b.toNat - 0x57)
  else none

/-- A number as it is printed. -/
def chars (radix n : ℕ) : List (BitVec 8) := (digitsOf radix n).reverse.map digitChar

/-- One more digit of a number that is read. -/
def readDigit (radix : ℕ) (n : Option ℕ) (b : BitVec 8) : Option ℕ :=
  n.bind fun n => (digitValue b).bind fun d => if d < radix then some (radix * n + d) else none

/-- A number without a sign: at least one digit, and a zero in front of no other. -/
def readNat (radix : ℕ) (s : List (BitVec 8)) : Option ℕ :=
  if s = [] ∨ (s.head? = some 0x30 ∧ 1 < s.length) then none
  else s.foldl (readDigit radix) (some 0)

/-- A number with or without a minus sign. -/
def readInt (radix : ℕ) : List (BitVec 8) → Option ℤ
  | 0x2D :: s => (readNat radix s).map fun n : ℕ => -(n : ℤ)
  | s => (readNat radix s).map fun n : ℕ => (n : ℤ)

theorem digitValue_digitChar {d : ℕ} (h : d < 36) : digitValue (digitChar d) = some d := by
  unfold digitValue digitChar
  split_ifs <;> simp at * <;> omega

theorem digitChar_inj {d e : ℕ} (hd : d < 36) (he : e < 36) (h : digitChar d = digitChar e) :
    d = e := by
  have := digitValue_digitChar hd
  rw [h, digitValue_digitChar he] at this
  exact (Option.some.inj this).symm

/-- The digits of a number have its value. -/
theorem foldl_readDigit {radix : ℕ} (hr : radix ≤ 36) {ds : List ℕ} (hds : ∀ d ∈ ds, d < radix) :
    (ds.map digitChar).foldl (readDigit radix) (some 0) = some (Nat.ofDigits radix ds.reverse) := by
  induction ds using List.reverseRecOn with
  | nil => rfl
  | append_singleton ds d ih =>
    have hd : d < radix := hds d (by simp)
    rw [List.map_append, List.foldl_append, ih fun e he => hds e (by simp [he])]
    show readDigit radix (some (Nat.ofDigits radix ds.reverse)) (digitChar d) = _
    unfold readDigit
    rw [Option.bind_some, digitValue_digitChar (by omega), Option.bind_some, if_pos hd,
      List.reverse_append, List.reverse_singleton, List.singleton_append, Nat.ofDigits_cons,
      Nat.add_comm]

/-- A string of digits is read if there is no zero in front of another digit. -/
theorem readNat_map_digitChar {radix : ℕ} (hr : radix ≤ 36) {ds : List ℕ}
    (hds : ∀ d ∈ ds, d < radix) :
    readNat radix (ds.map digitChar) =
      if ds = [] ∨ (ds.head? = some 0 ∧ 1 < ds.length) then none
      else some (Nat.ofDigits radix ds.reverse) := by
  have hzero : (ds.map digitChar).head? = some 0x30 ↔ ds.head? = some 0 := by
    cases ds with
    | nil => simp
    | cons d ds =>
      have hd := hds d List.mem_cons_self
      simp only [List.map_cons, List.head?_cons, Option.some.injEq]
      constructor
      · exact fun h => digitChar_inj (by omega) (by omega) h
      · rintro rfl
        rfl
  unfold readNat
  simp only [hzero, List.length_map, List.map_eq_nil_iff, foldl_readDigit hr hds]

/-- A number that is printed is read. -/
theorem readNat_chars {radix : ℕ} (hr : 1 < radix) (hr' : radix ≤ 36) (n : ℕ) :
    readNat radix (chars radix n) = some n := by
  have hlt : ∀ d ∈ (digitsOf radix n).reverse, d < radix :=
    fun d hd => digitsOf_lt hr (List.mem_reverse.1 hd)
  unfold chars
  rw [readNat_map_digitChar hr' hlt, if_neg, List.reverse_reverse, ofDigits_digitsOf]
  rintro (h | ⟨h, hlen⟩)
  · exact digitsOf_ne_nil radix n (List.reverse_eq_nil_iff.1 h)
  · rw [List.length_reverse] at hlen
    rw [List.head?_reverse, List.getLast?_eq_some_getLast (digitsOf_ne_nil radix n)] at h
    exact getLast_digitsOf hlen (Option.some.inj h)

theorem digitChar_ne {d : ℕ} (h : d < 36) {c : BitVec 8} (hc : digitValue c = none) :
    digitChar d ≠ c := by
  rintro rfl
  rw [digitValue_digitChar h] at hc
  cases hc

theorem digitChar_ne_minus {d : ℕ} (h : d < 36) : digitChar d ≠ 0x2D := digitChar_ne h rfl

theorem digitChar_ne_zero {d : ℕ} (h : d < 36) : digitChar d ≠ 0 := digitChar_ne h rfl

theorem readInt_minus (radix : ℕ) (s : List (BitVec 8)) :
    readInt radix (0x2D :: s) = (readNat radix s).map fun n : ℕ => -(n : ℤ) := by
  unfold readInt
  rfl

theorem readInt_chars {radix : ℕ} (hr : 1 < radix) (hr' : radix ≤ 36) (n : ℕ) :
    readInt radix (chars radix n) = some (n : ℤ) := by
  have hread := readNat_chars hr hr' n
  unfold readInt
  split
  · next s hs =>
    have hmem : (0x2D : BitVec 8) ∈ chars radix n := by rw [hs]; exact List.mem_cons_self
    obtain ⟨d, hd, hd'⟩ := List.mem_map.1 hmem
    have := digitsOf_lt hr (List.mem_reverse.1 hd)
    exact absurd hd' (digitChar_ne_minus (by omega))
  · rw [hread]
    rfl

/-- Of the strings with as many digits as a number has, only the one that is printed is
    read as that number. -/
theorem readNat_eq_some_iff {radix : ℕ} (hr : 1 < radix) (hr' : radix ≤ 36) {n : ℕ} {ds : List ℕ}
    (hds : ∀ d ∈ ds, d < radix) (hlen : ds.length = (digitsOf radix n).length) :
    readNat radix (ds.map digitChar) = some n ↔ ds = (digitsOf radix n).reverse := by
  constructor
  · intro h
    rw [readNat_map_digitChar hr' hds] at h
    split_ifs at h with hnone
    have hvalue : Nat.ofDigits radix ds.reverse = Nat.ofDigits radix (digitsOf radix n) := by
      rw [ofDigits_digitsOf]
      exact Option.some.inj h
    have hrev := Nat.ofDigits_inj_of_len_eq hr (by rw [List.length_reverse, hlen])
      (fun d hd => hds d (List.mem_reverse.1 hd)) (fun d hd => digitsOf_lt hr hd) hvalue
    rw [← hrev, List.reverse_reverse]
  · rintro rfl
    exact readNat_chars hr hr' n

/-! ## Turning a piece of a list round -/

variable {α : Type}

/-- The entries at `a` and `b` change places. -/
def swap (s : List α) (d : α) (a b : ℕ) : List α := (s.set a (s.getD b d)).set b (s.getD a d)

/-- The ends of a piece change places. -/
theorem swap_ends (pre mid post : List α) (d x y : α) :
    swap (pre ++ (x :: (mid ++ y :: post))) d pre.length (pre.length + (mid.length + 1)) =
      pre ++ (y :: (mid ++ x :: post)) := by
  unfold swap
  simp [List.set_append_right]

theorem swap_self (pre post : List α) (d x : α) :
    swap (pre ++ x :: post) d pre.length pre.length = pre ++ x :: post := by
  unfold swap
  simp [List.set_append_right]

/-- The two ends of a piece are swapped, then those of what lies between them, and so on as
    far as the middle, where the entry of an odd piece may be swapped with itself. -/
theorem foldl_swap (pre mid post : List α) (d : α) {n : ℕ} (hlo : mid.length / 2 ≤ n)
    (hhi : n ≤ (mid.length + 1) / 2) :
    (List.range' pre.length n).foldl
        (fun s j => swap s d j (2 * pre.length + mid.length - 1 - j)) (pre ++ (mid ++ post)) =
      pre ++ (mid.reverse ++ post) := by
  induction mid using List.bidirectionalRec generalizing pre post n with
  | nil =>
    obtain rfl : n = 0 := by simpa using hhi
    rfl
  | singleton a =>
    obtain rfl | rfl : n = 0 ∨ n = 1 := by
      simp only [List.length_singleton] at hhi
      omega
    · rfl
    · simp only [List.range'_one, List.foldl_cons, List.foldl_nil, List.length_singleton,
        List.reverse_singleton, List.singleton_append]
      rw [show 2 * pre.length + 1 - 1 - pre.length = pre.length by omega]
      exact swap_self pre post d a
  | cons_append a mid b ih =>
    have hlen : (a :: (mid ++ [b])).length = mid.length + 2 := by simp
    rw [hlen] at hlo hhi ⊢
    obtain ⟨k, rfl⟩ : ∃ k, n = k + 1 := ⟨n - 1, by omega⟩
    rw [List.range'_succ, List.foldl_cons,
      show 2 * pre.length + (mid.length + 2) - 1 - pre.length = pre.length + (mid.length + 1) by
        omega]
    have hends := swap_ends pre mid post d a b
    have hmid := ih (pre ++ [b]) (a :: post) (n := k) (by omega) (by omega)
    simp only [List.length_append, List.length_singleton, List.append_assoc,
      List.singleton_append] at hmid
    rw [List.cons_append, List.append_assoc, List.singleton_append, hends,
      show 2 * pre.length + (mid.length + 2) - 1 = 2 * (pre.length + 1) + mid.length - 1 by omega,
      hmid]
    simp

end Numerals
