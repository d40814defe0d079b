import Abox.Basic

/-!
# Numbers and strings as text

`atoi` and `strlen` of the library, and the text that a number is printed as.

* `atoi_decimal`: `atoi` reads a number that is printed.
-/

namespace Abox.Ymodem

def isSpace (b : Byte) : Bool := decide (b = 0x20) || (decide (0x09 ≤ b) && decide (b ≤ 0x0D))

def isDigit (b : Byte) : Bool := decide (0x30 ≤ b) && decide (b ≤ 0x39)

/-- The value of the digits `bs` starts with. -/
def digitsValue (bs : List Byte) : ℕ :=
  (bs.takeWhile isDigit).foldl (fun n b => 10 * n + (b.toNat - 0x30)) 0

/-- `LONG_MAX` and `LONG_MIN`, where `strtol` stops. -/
def longMax : ℤ := 2147483647
def longMin : ℤ := -2147483648

/-- `atoi` of the library. -/
def atoi (bs : List Byte) : ℤ :=
  match bs.dropWhile isSpace with
  | 0x2D :: bs => max longMin (-(digitsValue bs : ℤ))
  | 0x2B :: bs => min longMax (digitsValue bs)
  | bs => min longMax (digitsValue bs)

/-- `strlen`. -/
def strlen (buf : List Byte) : ℕ := (buf.takeWhile fun b => decide (b ≠ 0)).length

/-- A number as it is printed. -/
def decimal (n : ℕ) : List Byte :=
  if n = 0 then [0x30] else (Nat.digits 10 n).reverse.map fun d => BitVec.ofNat 8 (0x30 + d)

/-! ## Reading what is printed -/

theorem isDigit_iff {b : Byte} : isDigit b = true ↔ 0x30 ≤ b.toNat ∧ b.toNat ≤ 0x39 := by
  unfold isDigit
  rw [Bool.and_eq_true, decide_eq_true_iff, decide_eq_true_iff]
  exact Iff.rfl

theorem toNat_digit {d : ℕ} (h : d < 10) : (BitVec.ofNat 8 (0x30 + d)).toNat = 0x30 + d := by
  rw [BitVec.toNat_ofNat]
  omega

theorem isDigit_zero : isDigit 0 = false := by decide

theorem isDigit_digit {d : ℕ} (h : d < 10) : isDigit (BitVec.ofNat 8 (0x30 + d)) = true := by
  rw [isDigit_iff, toNat_digit h]
  omega

theorem decimal_isDigit (n : ℕ) : ∀ b ∈ decimal n, isDigit b = true := by
  unfold decimal
  split_ifs with h
  · intro b hb
    obtain rfl := List.mem_singleton.1 hb
    rfl
  · intro b hb
    obtain ⟨d, hd, rfl⟩ := List.mem_map.1 hb
    exact isDigit_digit (Nat.digits_lt_base (by omega) (List.mem_reverse.1 hd))

theorem decimal_ne_nil (n : ℕ) : decimal n ≠ [] := by
  unfold decimal
  split_ifs with h
  · exact List.cons_ne_nil _ _
  · simpa [Nat.digits_ne_nil_iff_ne_zero] using h

theorem length_decimal_le {n k : ℕ} (h : n < 10 ^ (k + 1)) : (decimal n).length ≤ k + 1 := by
  unfold decimal
  split_ifs
  · exact Nat.le_add_left 1 k
  · rwa [List.length_map, List.length_reverse, Nat.digits_length_le_iff (by omega)]

/-- The digits of a number have its value. -/
theorem foldl_decimal (n : ℕ) :
    (decimal n).foldl (fun n b => 10 * n + (b.toNat - 0x30)) 0 = n := by
  unfold decimal
  split_ifs with h
  · rw [h]
    rfl
  · rw [List.foldl_map, List.foldl_reverse]
    have hdigits : ∀ ds : List ℕ, (∀ d ∈ ds, d < 10) →
        ds.foldr (fun d n => 10 * n + ((BitVec.ofNat 8 (0x30 + d)).toNat - 0x30)) 0 =
          Nat.ofDigits 10 ds := by
      intro ds
      induction ds with
      | nil => exact fun _ => rfl
      | cons d ds ih =>
        intro hds
        rw [List.foldr_cons, ih fun d hd => hds d (List.mem_cons_of_mem _ hd),
          toNat_digit (hds d List.mem_cons_self), Nat.ofDigits_cons, Nat.add_sub_cancel_left,
          Nat.add_comm]
    rw [hdigits _ fun d hd => Nat.digits_lt_base (by omega) hd, Nat.ofDigits_digits]

theorem digitsValue_decimal {n : ℕ} {stop : Byte} (h : isDigit stop = false) (rest : List Byte) :
    digitsValue (decimal n ++ stop :: rest) = n := by
  unfold digitsValue
  rw [List.takeWhile_append_of_pos (decimal_isDigit n), List.takeWhile_cons_of_neg (by simp [h]),
    List.append_nil, foldl_decimal]

theorem isSpace_of_isDigit {b : Byte} (h : isDigit b = true) : isSpace b = false := by
  rw [isDigit_iff] at h
  unfold isSpace
  rw [Bool.or_eq_false_iff, Bool.and_eq_false_iff, decide_eq_false_iff_not,
    decide_eq_false_iff_not, decide_eq_false_iff_not]
  refine ⟨?_, Or.inr ?_⟩
  · rintro rfl
    exact absurd h.1 (by decide)
  · intro hle
    have : b.toNat ≤ 0x0D := hle
    omega

/-- `atoi` of a number that is printed. -/
theorem atoi_decimal {n : ℕ} {stop : Byte} (h : isDigit stop = false) (rest : List Byte) :
    atoi (decimal n ++ stop :: rest) = min longMax n := by
  obtain ⟨d, ds, hd⟩ := List.exists_cons_of_ne_nil (decimal_ne_nil n)
  have hdigit : isDigit d = true := decimal_isDigit n d (by rw [hd]; exact List.mem_cons_self)
  have hvalue := digitsValue_decimal h rest (n := n)
  have hspace := isSpace_of_isDigit hdigit
  rw [hd, List.cons_append] at hvalue ⊢
  unfold atoi
  rw [List.dropWhile_cons_of_neg (by simp [hspace])]
  split
  · next heq =>
    obtain ⟨rfl, -⟩ := List.cons.inj heq
    exact absurd hdigit (by decide)
  · next heq =>
    obtain ⟨rfl, -⟩ := List.cons.inj heq
    exact absurd hdigit (by decide)
  · rw [hvalue]

theorem strlen_name {name rest : List Byte} (h : ∀ b ∈ name, b ≠ 0) :
    strlen (name ++ 0 :: rest) = name.length := by
  unfold strlen
  rw [List.takeWhile_append_of_pos (by simpa using h), List.takeWhile_cons_of_neg (by decide),
    List.append_nil]

end Abox.Ymodem
