import Abox.Config.NetFile
import Abox.Lib.Loops
import Abox.Lib.Numerals
import Abox.Ymodem.Text

/-!
# Numbers as text

Model of `itoa` (`Abox_log.c` lines 166–198). The digits are written from the last one
on and then turned round. The loop that swaps them takes the place of the sign into
account where it starts, but not where it ends.

* `itoa_eq`: what `itoa` writes.
* `itoa_reads_iff`: the text reads back as the number if there is no sign or all digits
  are equal.
-/

namespace Abox.Log

open Config (copyTo)
open Loops Numerals

/-- The characters of a literal. -/
def ascii (s : String) : List Byte := s.toList.map fun c => BitVec.ofNat 8 c.toNat

/-- `index`. -/
def itoaIndex : List Byte := ascii "0123456789ABCDEFGHIJKLMNOPQRSTUVWXYZ"

/-- The body of the loop that writes the digits, on `str`, `i` and `unum`. -/
def itoaDigit (radix : BitVec 32) : List Byte × ℕ × BitVec 32 → List Byte × ℕ × BitVec 32
  | (str, i, unum) =>
    (copyTo str i [itoaIndex.getD (unum % radix).toNat 0], i + 1, unum / radix)

/-- The loop that turns the digits round; its condition is `j <= (i-k-1)/2.0`. -/
def itoaSwaps (i k : ℕ) (str : List Byte) : List Byte :=
  (List.range' k ((i - k - 1) / 2 + 1 - k)).foldl (fun str j => swap str 0 j (i - j - 1)) str

/-- `str`, `i` and `unum` in front of the first digit; `-num` wraps. -/
def itoaStart (num : BitVec 32) (str : List Byte) (radix : BitVec 32) :
    List Byte × ℕ × BitVec 32 :=
  if radix = 10 ∧ num.toInt < 0 then (copyTo str 0 [0x2D], 1, -num) else (str, 0, num)

/-- The zero behind the digits and the loop that turns them round. -/
def itoaEnd : List Byte × ℕ × BitVec 32 → List Byte
  | (str, i, _) =>
    let str := copyTo str i [0]
    itoaSwaps i (if str.getD 0 0 = 0x2D then 1 else 0) str

/-- `itoa`. What stands from `str` on grows as it is written. The loop that writes the
    digits has 32 passes behind its first one at most, unless it does not end. -/
def itoa (num : BitVec 32) (str : List Byte) (radix : BitVec 32) : Option (List Byte) :=
  (whileLoop (fun s => s.2.2 ≠ 0) (fun s => some (itoaDigit radix s)) 32
    (itoaDigit radix (itoaStart num str radix))).map itoaEnd

/-- The string that memory starts with. -/
def cstr (mem : List Byte) : Option (List Byte) :=
  if 0 ∈ mem then some (mem.takeWhile (· ≠ 0)) else none

/-! ## The digits -/

theorem copyTo_append (pre rest : List Byte) (b : Byte) :
    copyTo (pre ++ rest) pre.length [b] = pre ++ b :: rest.drop 1 := by
  unfold Config.copyTo
  simp

theorem itoaIndex_getD {d : ℕ} (h : d < 36) : itoaIndex.getD d 0 = digitChar d := by
  have htable : itoaIndex = (List.range 36).map digitChar := by decide +kernel
  rw [htable, List.getD_eq_getElem _ _ (by simpa using h), List.getElem_map, List.getElem_range]

theorem itoaDigit_append {radix : BitVec 32} (h0 : 1 < radix.toNat) (h : radix.toNat ≤ 36)
    (pre rest : List Byte) (unum : BitVec 32) :
    itoaDigit radix (pre ++ rest, pre.length, unum) =
      ((pre ++ [digitChar (unum.toNat % radix.toNat)]) ++ rest.drop 1,
        (pre ++ [digitChar (unum.toNat % radix.toNat)]).length, unum / radix) := by
  have hmod : unum.toNat % radix.toNat < radix.toNat := Nat.mod_lt _ (by omega)
  show (copyTo (pre ++ rest) pre.length [itoaIndex.getD (unum % radix).toNat 0], _, _) = _
  rw [BitVec.toNat_umod, itoaIndex_getD (by omega), copyTo_append]
  simp

/-- The loop writes the digits of `unum`, the last one first. -/
theorem whileLoop_itoaDigit {radix : BitVec 32} (h0 : 1 < radix.toNat) (h : radix.toNat ≤ 36)
    {fuel : ℕ} (pre rest : List Byte) {unum : BitVec 32}
    (hfuel : unum.toNat < radix.toNat ^ (fuel + 1)) :
    whileLoop (fun s => s.2.2 ≠ 0) (fun s => some (itoaDigit radix s)) fuel
        (itoaDigit radix (pre ++ rest, pre.length, unum)) =
      some (pre ++ (digitsOf radix.toNat unum.toNat).map digitChar ++
          rest.drop (digitsOf radix.toNat unum.toNat).length,
        pre.length + (digitsOf radix.toNat unum.toNat).length, 0) := by
  induction fuel generalizing pre rest unum with
  | zero =>
    have hdiv : unum.toNat / radix.toNat = 0 := Nat.div_eq_of_lt (by simpa using hfuel)
    have hzero : unum / radix = 0 := BitVec.eq_of_toNat_eq (by simpa using hdiv)
    rw [itoaDigit_append h0 h, whileLoop_of_not (by simp [hzero]), digitsOf_eq h0, if_pos hdiv,
      hzero]
    simp
  | succ fuel ih =>
    rw [itoaDigit_append h0 h, digitsOf_eq h0]
    by_cases hdiv : unum.toNat / radix.toNat = 0
    · have hzero : unum / radix = 0 := BitVec.eq_of_toNat_eq (by simpa using hdiv)
      rw [whileLoop_of_not (by simp [hzero]), if_pos hdiv, hzero]
      simp
    · have hzero : unum / radix ≠ 0 := fun hz => hdiv (by rw [← BitVec.toNat_udiv, hz]; rfl)
      have hlt : (unum / radix).toNat < radix.toNat ^ (fuel + 1) := by
        rw [BitVec.toNat_udiv]
        exact Nat.div_lt_of_lt_mul (by rwa [← Nat.pow_succ'])
      rw [whileLoop_succ (by simpa using hzero), Option.bind_some, ih _ _ hlt, if_neg hdiv,
        BitVec.toNat_udiv]
      simp
      omega

/-! ## The text -/

/-- What `itoa` writes in front of the zero. -/
def itoaText (num radix : BitVec 32) : List Byte :=
  if radix = 10 ∧ num.toInt < 0 then
    0x2D :: ((digitsOf 10 (-num).toNat).reverse.rotate 1).map digitChar
  else chars radix.toNat num.toNat

theorem getD_digits_ne_minus {radix : ℕ} (h0 : 1 < radix) (h : radix ≤ 36) (n : ℕ)
    (rest : List Byte) : ((digitsOf radix n).map digitChar ++ rest).getD 0 0 ≠ 0x2D := by
  obtain ⟨d, ds, hds⟩ := List.exists_cons_of_ne_nil (digitsOf_ne_nil radix n)
  have hd : d < radix := digitsOf_lt h0 (by rw [hds]; exact List.mem_cons_self)
  rw [hds]
  exact digitChar_ne_minus (by omega)

/-- Without a sign all digits are turned round. -/
theorem itoaSwaps_zero (ds rest : List Byte) (h : ds ≠ []) :
    itoaSwaps ds.length 0 (ds ++ rest) = ds.reverse ++ rest := by
  have hlen : 0 < ds.length := List.length_pos_iff.2 h
  have hswap := foldl_swap [] ds rest (0 : Byte) (n := (ds.length - 1) / 2 + 1) (by omega)
    (by omega)
  unfold itoaSwaps
  rw [Nat.sub_zero, Nat.sub_zero, ← List.nil_append (ds ++ rest),
    ← List.nil_append (ds.reverse ++ rest), ← hswap]
  congr 1
  funext str j
  congr 1
  simp
  omega

/-- With a sign the last place is left as it is. -/
theorem itoaSwaps_one (sign d : Byte) (ds rest : List Byte) :
    itoaSwaps (ds.length + 2) 1 (sign :: (ds ++ d :: rest)) =
      sign :: (ds.reverse ++ d :: rest) := by
  have hswap := foldl_swap [sign] ds (d :: rest) (0 : Byte) (n := ds.length / 2) le_rfl (by omega)
  unfold itoaSwaps
  rw [show (ds.length + 2 - 1 - 1) / 2 + 1 - 1 = ds.length / 2 by omega]
  refine Eq.trans ?_ hswap
  congr 1
  funext str j
  congr 1
  simp
  omega

/-- The digits are written, and the loop that turns them round is reached. -/
theorem itoa_start {num radix : BitVec 32} {str pre rest : List Byte} {unum : BitVec 32}
    (h0 : 1 < radix.toNat) (h : radix.toNat ≤ 36)
    (hstart : itoaStart num str radix = (pre ++ rest, pre.length, unum)) :
    itoa num str radix =
      some (itoaEnd (pre ++ (digitsOf radix.toNat unum.toNat).map digitChar ++
          rest.drop (digitsOf radix.toNat unum.toNat).length,
        pre.length + (digitsOf radix.toNat unum.toNat).length, 0)) := by
  have hfuel : unum.toNat < radix.toNat ^ (32 + 1) := by
    calc unum.toNat < 2 ^ 32 := unum.isLt
      _ ≤ radix.toNat ^ 32 := Nat.pow_le_pow_left h0 32
      _ ≤ radix.toNat ^ (32 + 1) := Nat.pow_le_pow_right (by omega) (by omega)
  unfold itoa
  rw [hstart, whileLoop_itoaDigit h0 h pre rest hfuel, Option.map_some]

theorem itoa_unsigned {radix : BitVec 32} (h0 : 1 < radix.toNat) (h : radix.toNat ≤ 36)
    {num : BitVec 32} (hnum : ¬ (radix = 10 ∧ num.toInt < 0)) (str : List Byte) :
    itoa num str radix =
      some (chars radix.toNat num.toNat ++
        0 :: str.drop ((chars radix.toNat num.toNat).length + 1)) := by
  have hstart : itoaStart num str radix = ([] ++ str, ([] : List Byte).length, num) :=
    if_neg hnum
  have hhead := getD_digits_ne_minus h0 h num.toNat
  rw [itoa_start h0 h hstart]
  set ds := (digitsOf radix.toNat num.toNat).map digitChar with hds
  have hlen : (digitsOf radix.toNat num.toNat).length = ds.length := by rw [hds, List.length_map]
  have hne : ds ≠ [] := by simpa [hds] using digitsOf_ne_nil _ _
  unfold itoaEnd
  simp only [hlen, List.nil_append, List.length_nil, Nat.zero_add, copyTo_append]
  rw [if_neg (hhead _), itoaSwaps_zero _ _ hne, chars, List.map_reverse, ← hds, List.drop_drop,
    List.length_reverse]

/-- The first digit, which was written last, stays behind the others if there is a sign. -/
theorem itoa_signed {num : BitVec 32} (hnum : num.toInt < 0) (str : List Byte) :
    itoa num str 10 =
      some (0x2D :: ((digitsOf 10 (-num).toNat).reverse.rotate 1).map digitChar ++
        0 :: str.drop ((digitsOf 10 (-num).toNat).length + 2)) := by
  have hradix : BitVec.toNat (10 : BitVec 32) = 10 := rfl
  have hstart : itoaStart num str 10 = ([0x2D] ++ str.drop 1, [(0x2D : Byte)].length, -num) := by
    unfold itoaStart
    rw [if_pos ⟨rfl, hnum⟩]
    rfl
  obtain ⟨ds, d, hds⟩ := (List.eq_nil_or_concat' (digitsOf 10 (-num).toNat)).resolve_left
    (digitsOf_ne_nil _ _)
  have hend := copyTo_append (0x2D :: (ds.map digitChar ++ [digitChar d]))
    ((str.drop 1).drop (ds.length + 1)) 0
  have hswaps := itoaSwaps_one 0x2D (digitChar d) (ds.map digitChar)
    (0 :: ((str.drop 1).drop (ds.length + 1)).drop 1)
  rw [itoa_start (by decide) (by decide) hstart, hradix, hds]
  unfold itoaEnd
  simp only [List.map_append, List.map_cons, List.map_nil, List.length_append, List.length_cons,
    List.length_nil, List.length_map, List.cons_append, List.nil_append, List.append_assoc,
    List.drop_drop, Nat.zero_add, List.reverse_append, List.reverse_cons, List.reverse_nil,
    List.rotate_cons_succ, List.rotate_zero] at hend hswaps ⊢
  rw [Nat.add_comm 1] at hend hswaps ⊢
  rw [hend, List.getD_cons_zero, if_pos rfl, hswaps, List.map_reverse]

/-- What `itoa` writes in a radix that has digits. -/
theorem itoa_eq {radix : BitVec 32} (h0 : 1 < radix.toNat) (h : radix.toNat ≤ 36)
    (num : BitVec 32) (str : List Byte) :
    itoa num str radix =
      some (itoaText num radix ++ 0 :: str.drop ((itoaText num radix).length + 1)) := by
  unfold itoaText
  split_ifs with hsign
  · obtain ⟨rfl, hnum⟩ := hsign
    rw [itoa_signed hnum]
    simp
  · exact itoa_unsigned h0 h hsign str

/-! ## Reading the text -/

theorem cstr_append {text : List Byte} (h : ∀ b ∈ text, b ≠ 0) (rest : List Byte) :
    cstr (text ++ 0 :: rest) = some text := by
  unfold cstr
  rw [if_pos (by simp), List.takeWhile_append_of_pos (by simpa using h),
    List.takeWhile_cons_of_neg (by decide), List.append_nil]

theorem itoaText_ne_zero {radix : BitVec 32} (h0 : 1 < radix.toNat) (h : radix.toNat ≤ 36)
    (num : BitVec 32) : ∀ b ∈ itoaText num radix, b ≠ 0 := by
  intro b hb
  unfold itoaText at hb
  split_ifs at hb
  · obtain rfl | hb := List.mem_cons.1 hb
    · decide
    · obtain ⟨d, hd, rfl⟩ := List.mem_map.1 hb
      have := @digitsOf_lt 10 _ _ (by omega) (List.mem_reverse.1 (List.mem_rotate.1 hd))
      exact digitChar_ne_zero (by omega)
  · obtain ⟨d, hd, rfl⟩ := List.mem_map.1 hb
    have := digitsOf_lt h0 (List.mem_reverse.1 hd)
    exact digitChar_ne_zero (by omega)

/-- The string that `itoa` leaves. -/
theorem cstr_itoa {radix : BitVec 32} (h0 : 1 < radix.toNat) (h : radix.toNat ≤ 36)
    (num : BitVec 32) (str : List Byte) :
    (itoa num str radix).bind cstr = some (itoaText num radix) := by
  rw [itoa_eq h0 h, Option.bind_some, cstr_append (itoaText_ne_zero h0 h num)]

theorem exists_itoa {radix : BitVec 32} (h0 : 1 < radix.toNat) (h : radix.toNat ≤ 36)
    (num : BitVec 32) (str : List Byte) :
    ∃ buf, itoa num str radix = some buf ∧ cstr buf = some (itoaText num radix) :=
  ⟨_, itoa_eq h0 h num str, cstr_append (itoaText_ne_zero h0 h num) _⟩

theorem length_itoaText_le (num : BitVec 32) : (itoaText num 10).length ≤ 11 := by
  have hdigits {n : ℕ} (hn : n < 2 ^ 32) : (digitsOf 10 n).length ≤ 10 :=
    length_digitsOf_le (by omega) (lt_of_lt_of_le hn (by norm_num))
  unfold itoaText chars
  split_ifs
  · have := hdigits (-num).isLt
    simp only [List.length_cons, List.length_map, List.length_rotate, List.length_reverse]
    omega
  · have := hdigits num.isLt
    simp only [List.length_map, List.length_reverse]
    exact this.trans (by omega)

theorem chars_ten (n : ℕ) : chars 10 n = Ymodem.decimal n := by
  unfold chars digitsOf Ymodem.decimal
  split_ifs
  · rfl
  · refine List.map_congr_left fun d hd => ?_
    have hlt : d < 10 := Nat.digits_lt_base (by omega) (List.mem_reverse.1 hd)
    rw [digitChar, if_pos hlt]

/-- A byte has no sign. -/
theorem itoaText_byte (b : Byte) : itoaText (b.setWidth 32) 10 = Ymodem.decimal b.toNat := by
  have hb := b.isLt
  have hnat : (b.setWidth 32).toNat = b.toNat := by
    rw [BitVec.toNat_setWidth]
    omega
  have hint : ¬ (b.setWidth 32).toInt < 0 := by
    rw [BitVec.toInt_eq_toNat_cond, hnat]
    split_ifs <;> omega
  rw [itoaText, if_neg fun hsign => hint hsign.2, hnat]
  exact chars_ten b.toNat

/-- The text in radix 10 reads as `num`, and, if `num` has no sign, that in radix 16. -/
def ItoaReads (num : BitVec 32) (str : List Byte) : Prop :=
  ((itoa num str 10).bind cstr).bind (readInt 10) = some num.toInt ∧
    (0 ≤ num.toInt → ((itoa num str 16).bind cstr).bind (readInt 16) = some num.toInt)

theorem readInt_itoaText {radix num : BitVec 32} (h0 : 1 < radix.toNat) (h : radix.toNat ≤ 36)
    (hnum : 0 ≤ num.toInt) : readInt radix.toNat (itoaText num radix) = some num.toInt := by
  have hvalue : num.toInt = num.toNat := by
    rw [BitVec.toInt_eq_toNat_cond] at hnum ⊢
    split_ifs at hnum ⊢ <;> omega
  unfold itoaText
  rw [if_neg fun hsign => by omega, readInt_chars h0 h, hvalue]

/-- A first digit that is put behind the others leaves a text that reads as the number
    only if it is equal to all of them. -/
theorem readInt_signed_iff {num : BitVec 32} (hnum : num.toInt < 0) :
    readInt 10 (itoaText num 10) = some num.toInt ↔
      ∃ d, ∀ e ∈ Nat.digits 10 num.toInt.natAbs, e = d := by
  have habs : (-num).toNat = num.toInt.natAbs := by
    rw [BitVec.toInt_eq_toNat_cond] at hnum ⊢
    rw [BitVec.toNat_neg]
    split_ifs at hnum ⊢ <;> omega
  set n := num.toInt.natAbs with hn
  have hlt : ∀ d ∈ (digitsOf 10 n).reverse.rotate 1, d < 10 :=
    fun d hd => digitsOf_lt (by omega) (List.mem_reverse.1 (List.mem_rotate.1 hd))
  have hread : readInt 10 (itoaText num 10) = some num.toInt ↔
      readNat 10 (((digitsOf 10 n).reverse.rotate 1).map digitChar) = some n := by
    unfold itoaText
    rw [if_pos ⟨rfl, hnum⟩, habs, readInt_minus, Option.map_eq_some_iff]
    constructor
    · rintro ⟨m, hm, hneg⟩
      rwa [show m = n by omega] at hm
    · exact fun h => ⟨n, h, by omega⟩
  have hdigits : digitsOf 10 n = Nat.digits 10 n := if_neg (by omega)
  rw [hread, readNat_eq_some_iff (by omega) (by omega) hlt (by simp),
    List.rotate_one_eq_self_iff_eq_replicate, hdigits]
  simp only [List.eq_replicate_iff, true_and, List.mem_reverse]

theorem itoa_reads_iff (num : BitVec 32) (str : List Byte) :
    ItoaReads num str ↔
      (0 ≤ num.toInt ∨ ∃ d, ∀ e ∈ Nat.digits 10 num.toInt.natAbs, e = d) := by
  unfold ItoaReads
  rw [cstr_itoa (by decide) (by decide), cstr_itoa (by decide) (by decide), Option.bind_some,
    Option.bind_some]
  by_cases hnum : 0 ≤ num.toInt
  · exact iff_of_true ⟨readInt_itoaText (by decide) (by decide) hnum,
      fun _ => readInt_itoaText (by decide) (by decide) hnum⟩ (Or.inl hnum)
  · rw [readInt_signed_iff (by omega)]
    exact ⟨fun h => Or.inr h.1, fun h => ⟨h.resolve_left hnum, fun h0 => absurd h0 hnum⟩⟩

/-- `itoa(-12, buf, 10)` is `"-21"`. -/
theorem itoa_minus_twelve :
    (itoa (-12) (List.replicate 33 0) 10).bind cstr = some (ascii "-21") ∧
      ¬ ItoaReads (-12) (List.replicate 33 0) := by
  have htext : (itoa (-12) (List.replicate 33 0) 10).bind cstr = some (ascii "-21") := by
    decide +kernel
  refine ⟨htext, fun h => ?_⟩
  have hread := h.1
  rw [htext] at hread
  exact absurd hread (by decide)

end Abox.Log
