import Abox.Config.NetValues
import Abox.Ymodem.Text

/-!
# The four numbers of an address

Model of `get_ch`, `set_ipaddr` and `saveNetAddr` (`client.c` lines 447–519). An address
is kept as text in a field of 16 bytes and is put into four `int`s of `net_addr`, here
a map from places to words. The pointers are not null.

* `set_ipaddr_inverts`: an address that is printed is read back, whatever stands behind
  its zero.
* `saveNetAddr_dotted`: so are the three addresses of a configuration.
-/

namespace Abox.Config

open Ymodem

/-- The body of the loop of `get_ch`, on `save` and `j`. -/
def getChBody (sbuf : List Byte) (ch : Byte) (slen : ℕ) : List Byte × ℕ → ℕ → List Byte × ℕ
  | (save, j), i =>
    if sbuf.getD i 0 = ch then
      if slen > j then (save.set j (BitVec.ofNat 8 i), j + 1) else (save, j)
    else (save, j)

/-- `get_ch` (lines 447–465): the first `slen` places of `ch` in `bsize` bytes go to `save`. -/
def get_ch (sbuf : List Byte) (bsize : ℕ) (ch : Byte) (save : List Byte) (slen : ℕ) : List Byte :=
  ((List.range bsize).foldl (getChBody sbuf ch slen) (save, 0)).1

/-- `set_ipaddr` (lines 470–493) with `waddr` pointing into `ints`. -/
def set_ipaddr (ipaddr : List Byte) (ints : ℕ → BitVec 32) (waddr : ℕ) : ℕ → BitVec 32 :=
  let pch := get_ch ipaddr 16 0x2E [0, 0, 0] 3
  (List.range 4).foldl
    (fun ints i =>
      if i = 0 then Function.update ints waddr (BitVec.ofInt 32 (atoi ipaddr))
      else
        Function.update ints (waddr + i)
          (BitVec.ofInt 32 (atoi (ipaddr.drop ((pch.getD (i - 1) 0).toNat + 1)))))
    ints

/-- `saveNetAddr` (lines 505–519). -/
def saveNetAddr (net : NetAddrConfig) (net_addr : ℕ → BitVec 32) : ℕ → BitVec 32 :=
  let net_addr := set_ipaddr (List.ofFn net.ipaddr) net_addr 0
  let net_addr := set_ipaddr (List.ofFn net.ipmaskaddr) net_addr 4
  set_ipaddr (List.ofFn net.ipgatwayaddr) net_addr 8

/-- The text of an address. -/
def dotted (a b c d : Byte) : List Byte :=
  decimal a.toNat ++ 0x2E :: (decimal b.toNat ++ 0x2E :: (decimal c.toNat ++ 0x2E ::
    decimal d.toNat))

/-- The four numbers of an address with dots between them. -/
def dottedOf (v : Fin 4 → Byte) : List Byte := dotted (v 0) (v 1) (v 2) (v 3)

/-- The field holds the address `v`: its text, a zero, and anything behind it. -/
def HoldsAddr (field : Chars 16) (v : Fin 4 → Byte) : Prop :=
  ∃ rest, List.ofFn field = dottedOf v ++ 0 :: rest

/-! ## The places of the dots -/

/-- The places that were found are in `save`, at most `slen` of them. -/
theorem foldl_getChBody (sbuf : List Byte) (bsize : ℕ) (ch : Byte) {save : List Byte} {slen : ℕ}
    (h : slen ≤ save.length) :
    (List.range bsize).foldl (getChBody sbuf ch slen) (save, 0) =
      (((searchCharacter sbuf bsize ch).take slen).map (BitVec.ofNat 8) ++
          save.drop (min slen (searchCharacter sbuf bsize ch).length),
        min slen (searchCharacter sbuf bsize ch).length) := by
  induction bsize with
  | zero => simp [searchCharacter]
  | succ n ih =>
    have hsucc : searchCharacter sbuf (n + 1 : ℕ) ch =
        searchCharacter sbuf n ch ++ if sbuf.getD n 0 = ch then [n] else [] := by
      unfold searchCharacter
      rw [Int.toNat_natCast, Int.toNat_natCast, List.range_succ, List.filter_append]
      simp [List.filter_cons]
    rw [List.range_succ, List.foldl_append, ih, List.foldl_cons, List.foldl_nil, hsucc]
    set ps := searchCharacter sbuf n ch with hps
    unfold getChBody
    by_cases hch : sbuf.getD n 0 = ch
    · simp only [if_pos hch]
      by_cases hlt : ps.length < slen
      · -- There is room, and the place goes behind the ones found so far.
        rw [if_pos (by omega), Nat.min_eq_right (by omega), List.take_of_length_le (by omega),
          List.take_of_length_le (by simp; omega), List.set_append_right _ _ (by simp),
          List.length_map, Nat.sub_self, List.drop_eq_getElem_cons (by omega)]
        simp only [List.set_cons_zero, List.map_append, List.map_cons, List.map_nil,
          List.append_assoc, List.singleton_append, List.length_append, List.length_singleton]
        rw [Nat.min_eq_right (by omega)]
      · rw [if_neg (by omega), List.take_append_of_le_length (by omega), List.length_append,
          List.length_singleton, Nat.min_eq_left (by omega), Nat.min_eq_left (by omega)]
    · simp only [if_neg hch, List.append_nil]

theorem get_ch_eq (sbuf : List Byte) (bsize : ℕ) (ch : Byte) {save : List Byte} {slen : ℕ}
    (h : slen ≤ save.length) :
    get_ch sbuf bsize ch save slen =
      ((searchCharacter sbuf bsize ch).take slen).map (BitVec.ofNat 8) ++
        save.drop (min slen (searchCharacter sbuf bsize ch).length) := by
  rw [get_ch, foldl_getChBody sbuf bsize ch h]

theorem places_decimal {ch : Byte} (h : isDigit ch = false) (n : ℕ) :
    places ch (decimal n) = [] := by
  rw [← List.length_eq_zero_iff, length_places, List.count_eq_zero]
  intro hmem
  rw [decimal_isDigit n ch hmem] at h
  cases h

/-- The places of the bytes in front of others come first. -/
theorem searchCharacter_append (bs rest : List Byte) (ch : Byte) {bsize : ℕ}
    (h : bs.length ≤ bsize) :
    ∃ ps, searchCharacter (bs ++ rest) bsize ch = places ch bs ++ ps := by
  obtain ⟨k, rfl⟩ := Nat.exists_eq_add_of_le h
  rw [← searchCharacter_eq_places bs rest ch]
  unfold searchCharacter
  rw [Int.toNat_natCast, Int.toNat_natCast, List.range_add, List.filter_append]
  exact ⟨_, rfl⟩

/-- An address as far as its third dot. -/
def dottedHead (a b c : Byte) : List Byte :=
  decimal a.toNat ++ 0x2E :: (decimal b.toNat ++ 0x2E :: (decimal c.toNat ++ [0x2E]))

theorem dotted_eq (a b c d : Byte) : dotted a b c d = dottedHead a b c ++ decimal d.toNat := by
  simp [dotted, dottedHead]

theorem length_decimal_byte (a : Byte) : (decimal a.toNat).length ≤ 3 :=
  length_decimal_le (by omega)

/-- The three dots of an address are found, and none behind them. -/
theorem get_ch_dotted (a b c d : Byte) (rest : List Byte) :
    get_ch (dotted a b c d ++ rest) 16 0x2E [0, 0, 0] 3 =
      [BitVec.ofNat 8 (decimal a.toNat).length,
        BitVec.ofNat 8 ((decimal a.toNat).length + (1 + (decimal b.toNat).length)),
        BitVec.ofNat 8 ((decimal a.toNat).length +
          (1 + ((decimal b.toNat).length + (1 + (decimal c.toNat).length))))] := by
  have ha := length_decimal_byte a
  have hb := length_decimal_byte b
  have hc := length_decimal_byte c
  have hplaces : places 0x2E (dottedHead a b c) =
      [(decimal a.toNat).length, (decimal a.toNat).length + (1 + (decimal b.toNat).length),
        (decimal a.toNat).length +
          (1 + ((decimal b.toNat).length + (1 + (decimal c.toNat).length)))] := by
    have hdot (n : ℕ) : places (46#8) (decimal n) = [] := places_decimal rfl n
    have hnil : places (46#8) [] = [] := rfl
    simp [dottedHead, places_append, places_cons, hdot, hnil]
  obtain ⟨ps, hps⟩ := @searchCharacter_append (dottedHead a b c) (decimal d.toNat ++ rest) 0x2E 16
    (by simp [dottedHead]; omega)
  rw [get_ch_eq _ _ _ (by decide), dotted_eq, List.append_assoc]
  have hps : searchCharacter (dottedHead a b c ++ (decimal d.toNat ++ rest)) ((16 : ℕ) : ℤ) 0x2E =
      _ := hps
  rw [hps, hplaces]
  simp

/-- A number in front of a dot or of the zero. -/
theorem atoi_octet (a : Byte) {stop : Byte} (h : isDigit stop = false) (rest : List Byte) :
    BitVec.ofInt 32 (atoi (decimal a.toNat ++ stop :: rest)) = a.setWidth 32 := by
  have ha := a.isLt
  have hmin : min longMax (a.toNat : ℤ) = a.toNat := min_eq_right (by unfold longMax; omega)
  rw [atoi_decimal h, hmin, BitVec.ofInt_natCast, BitVec.ofNat_toNat]

/-! ## The four numbers -/

/-- What stands behind the mark at the place `n`, which is kept in a `char`. -/
theorem drop_mark {n : ℕ} {pre bs : List Byte} {ch : Byte} (hn : pre.length = n) (h : n < 256) :
    (pre ++ ch :: bs).drop ((BitVec.ofNat 8 n).toNat + 1) = bs := by
  rw [BitVec.toNat_ofNat, Nat.mod_eq_of_lt h, ← hn, List.drop_append, List.drop_eq_nil_of_le
    (Nat.le_succ _), Nat.add_sub_cancel_left, List.nil_append, List.drop_succ_cons, List.drop_zero]

theorem set_ipaddr_dotted (a b c d : Byte) (rest : List Byte) (ints : ℕ → BitVec 32)
    (waddr : ℕ) :
    set_ipaddr (dotted a b c d ++ 0 :: rest) ints waddr =
      Function.update (Function.update (Function.update (Function.update ints
        waddr (a.setWidth 32)) (waddr + 1) (b.setWidth 32)) (waddr + 2) (c.setWidth 32))
        (waddr + 3) (d.setWidth 32) := by
  have ha := length_decimal_byte a
  have hb := length_decimal_byte b
  have hc := length_decimal_byte c
  have htext : dotted a b c d ++ 0 :: rest =
      decimal a.toNat ++ 0x2E :: (decimal b.toNat ++ 0x2E :: (decimal c.toNat ++ 0x2E ::
        (decimal d.toNat ++ 0 :: rest))) := by
    simp [dotted]
  have hdrop1 := @drop_mark _ (decimal a.toNat) (decimal b.toNat ++ 0x2E ::
    (decimal c.toNat ++ 0x2E :: (decimal d.toNat ++ 0 :: rest))) 0x2E rfl (by omega)
  have hdrop2 := @drop_mark ((decimal a.toNat).length + (1 + (decimal b.toNat).length))
    (decimal a.toNat ++ 0x2E :: decimal b.toNat)
    (decimal c.toNat ++ 0x2E :: (decimal d.toNat ++ 0 :: rest)) 0x2E (by simp; omega) (by omega)
  have hdrop3 := @drop_mark ((decimal a.toNat).length +
      (1 + ((decimal b.toNat).length + (1 + (decimal c.toNat).length))))
    (decimal a.toNat ++ 0x2E :: (decimal b.toNat ++ 0x2E :: decimal c.toNat))
    (decimal d.toNat ++ 0 :: rest) 0x2E (by simp; omega) (by omega)
  simp only [List.append_assoc, List.cons_append] at hdrop2 hdrop3
  unfold set_ipaddr
  rw [get_ch_dotted, htext]
  show Function.update (Function.update (Function.update (Function.update ints waddr _)
    (waddr + 1) _) (waddr + 2) _) (waddr + 3) _ = _
  rw [atoi_octet a rfl]
  congr
  · exact (congrArg _ (congrArg atoi hdrop1)).trans (atoi_octet b rfl _)
  · exact (congrArg _ (congrArg atoi hdrop2)).trans (atoi_octet c rfl _)
  · exact (congrArg _ (congrArg atoi hdrop3)).trans (atoi_octet d rfl _)

/-- An address that is printed is read back into four `int`s, whatever stands behind its
    zero, and nothing else is written. -/
theorem set_ipaddr_inverts {field : Chars 16} {v : Fin 4 → Byte} (h : HoldsAddr field v)
    (ints : ℕ → BitVec 32) (waddr : ℕ) :
    (∀ i : Fin 4, set_ipaddr (List.ofFn field) ints waddr (waddr + i) = (v i).setWidth 32) ∧
      ∀ p, p < waddr ∨ waddr + 4 ≤ p → set_ipaddr (List.ofFn field) ints waddr p = ints p := by
  obtain ⟨rest, hfield⟩ := h
  rw [hfield, dottedOf, set_ipaddr_dotted]
  constructor
  · intro i
    fin_cases i <;> simp
  · intro p hp
    rw [Function.update_of_ne (by omega), Function.update_of_ne (by omega),
      Function.update_of_ne (by omega), Function.update_of_ne (by omega)]

/-- `"10.0.0.7"` and, behind its zero, `"..1"`. -/
def dotsBehind : Chars 16 :=
  Chars.ofString 16 [0x31, 0x30, 0x2E, 0x30, 0x2E, 0x30, 0x2E, 0x37, 0, 0x2E, 0x2E, 0x31]

theorem set_ipaddr_inverts_dotsBehind :
    (∀ i : Fin 4, set_ipaddr (List.ofFn dotsBehind) (fun _ => 0) 4 (4 + i) =
        (![10, 0, 0, 7] i : Byte).setWidth 32) ∧
      ∀ p, p < 4 ∨ 4 + 4 ≤ p → set_ipaddr (List.ofFn dotsBehind) (fun _ => 0) 4 p = 0 :=
  set_ipaddr_inverts ⟨[0x2E, 0x2E, 0x31, 0, 0, 0, 0], by decide +kernel⟩ (fun _ => 0) 4

/-- The three addresses of a configuration are put into the twelve words of `net_addr`. -/
theorem saveNetAddr_dotted {net : NetAddrConfig} {v : Fin 3 → Fin 4 → Byte}
    (hip : HoldsAddr net.ipaddr (v 0)) (hmask : HoldsAddr net.ipmaskaddr (v 1))
    (hgw : HoldsAddr net.ipgatwayaddr (v 2)) (net_addr : ℕ → BitVec 32) :
    (∀ (i : Fin 3) (j : Fin 4), saveNetAddr net net_addr (4 * i + j) = (v i j).setWidth 32) ∧
      ∀ p, 12 ≤ p → saveNetAddr net net_addr p = net_addr p := by
  obtain ⟨_, hip⟩ := hip
  obtain ⟨_, hmask⟩ := hmask
  obtain ⟨_, hgw⟩ := hgw
  unfold saveNetAddr
  rw [hip, hmask, hgw, dottedOf, dottedOf, dottedOf, set_ipaddr_dotted, set_ipaddr_dotted,
    set_ipaddr_dotted]
  constructor
  · intro i j
    fin_cases i <;> fin_cases j <;> simp
  · intro p hp
    simp only [Function.update_apply]
    simp (disch := omega) only [if_neg]

end Abox.Config
