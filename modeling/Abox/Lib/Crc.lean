import Mathlib

/-!
# Cyclic redundancy checks, lowest bit first

A register of `w` bits takes the bits of a message one after the other, those of
a byte from the lowest one on, and is reduced by `poly` whenever a one leaves it.

* `push_eq_table`: eight steps of the register are one access to a table of 256 words.
* `run_xor`: the checksum is linear.
* `run_bytes`, `eq_bytes_of_run`: behind the bytes of the register, and behind
  no other bytes of that number, the register is zero.
* `run_ne_run_of_window`: two messages of the same length that differ only
  within `w` consecutive bits have different checksums.
-/

namespace Crc

variable {w : ℕ} (poly : BitVec w)

/-- One step of the register. -/
def shift (c : BitVec w) : BitVec w := if c.getLsbD 0 then c >>> 1 ^^^ poly else c >>> 1

/-- The register takes a byte. -/
def push (c : BitVec w) (b : BitVec 8) : BitVec w := (shift poly)^[8] (c ^^^ b.setWidth w)

/-- The register after a message. -/
def run (c : BitVec w) (bs : List (BitVec 8)) : BitVec w := bs.foldl (push poly) c

/-- The bytes of a register, the lowest one first. -/
def bytes (c : BitVec w) : List (BitVec 8) :=
  (List.range (w / 8)).map fun k => c.extractLsb' (8 * k) 8

/-! ## Tables -/

/-- The entries of a table that is given as a list. -/
theorem getD_of_toList {α : Type} {t : Array α} {n : ℕ} {f : ℕ → α}
    (h : t.toList = (List.range n).map f) {i : ℕ} (hi : i < n) (d : α) : t.getD i d = f i := by
  rw [Array.getD_eq_getD_getElem?, ← Array.getElem?_toList, h, List.getElem?_map,
    List.getElem?_range hi]
  rfl

theorem extractLsb'_append_extractLsb' (c : BitVec 16) :
    (c.extractLsb' 8 8 ++ c.extractLsb' 0 8 : BitVec 16) = c := by
  apply BitVec.eq_of_getLsbD_eq
  intro i hi
  rw [BitVec.getLsbD_append, BitVec.getLsbD_extractLsb', BitVec.getLsbD_extractLsb']
  by_cases h : i < 8
  · rw [if_pos h, decide_eq_true h, Bool.true_and, Nat.zero_add]
  · rw [if_neg h, decide_eq_true (by omega), Bool.true_and, Nat.add_sub_cancel' (by omega)]

/-! ## A step of the register -/

theorem shift_xor (c d : BitVec w) : shift poly (c ^^^ d) = shift poly c ^^^ shift poly d := by
  unfold shift
  rw [BitVec.getLsbD_xor, BitVec.ushiftRight_xor_distrib]
  cases c.getLsbD 0 <;> cases d.getLsbD 0
  · rfl
  · simp [BitVec.xor_assoc]
  · simp only [Bool.true_bne, Bool.not_false, if_true]
    rw [BitVec.xor_assoc, BitVec.xor_assoc, BitVec.xor_comm poly]
    rfl
  · have hpoly : c >>> 1 ^^^ poly ^^^ (d >>> 1 ^^^ poly) = c >>> 1 ^^^ d >>> 1 := by
      rw [BitVec.xor_comm (d >>> 1), ← BitVec.xor_assoc, BitVec.xor_assoc (c >>> 1),
        BitVec.xor_self, BitVec.xor_zero]
    simpa using hpoly.symm

theorem shift_zero : shift poly 0#w = 0#w := by simp [shift]

theorem iterate_shift_xor (n : ℕ) (c d : BitVec w) :
    (shift poly)^[n] (c ^^^ d) = (shift poly)^[n] c ^^^ (shift poly)^[n] d := by
  induction n generalizing c d with
  | zero => rfl
  | succ n ih => rw [Function.iterate_succ_apply, shift_xor, ih]; rfl

theorem iterate_shift_zero (n : ℕ) : (shift poly)^[n] 0#w = 0#w :=
  Function.iterate_fixed (shift_zero poly) n

/-- A register whose low bits are clear only moves down. -/
theorem iterate_shift_of_low {c : BitVec w} {n : ℕ} (h : ∀ i < n, c.getLsbD i = false) :
    (shift poly)^[n] c = c >>> n := by
  induction n with
  | zero => simp
  | succ n ih =>
    have hlow : (c >>> n).getLsbD 0 = false := by
      rw [BitVec.getLsbD_ushiftRight]
      exact h n (Nat.lt_succ_self n)
    rw [Function.iterate_succ_apply', ih fun i hi => h i (by omega), shift, hlow,
      if_neg (by simp), BitVec.shiftRight_add]

variable {poly}

/-- A step loses nothing if `poly` has its highest bit: that bit tells which way the
    step went. -/
theorem shift_eq_zero (hpoly : poly.getLsbD (w - 1) = true) {c : BitVec w}
    (h : shift poly c = 0#w) : c = 0#w := by
  have hw : 0 < w := by
    by_contra hw
    obtain rfl : w = 0 := by omega
    simp at hpoly
  have htop : (c >>> 1).getLsbD (w - 1) = false := by
    rw [BitVec.getLsbD_ushiftRight]
    exact BitVec.getLsbD_of_ge _ _ (by omega)
  unfold shift at h
  by_cases h0 : c.getLsbD 0 = true
  · rw [if_pos h0] at h
    have := congrArg (fun x => x.getLsbD (w - 1)) h
    simp [htop, hpoly] at this
  · rw [if_neg h0] at h
    apply BitVec.eq_of_getLsbD_eq
    intro i _
    rw [BitVec.getLsbD_zero]
    cases i with
    | zero => simpa using h0
    | succ i =>
      have := congrArg (fun x => x.getLsbD i) h
      rw [BitVec.getLsbD_ushiftRight, BitVec.getLsbD_zero] at this
      rw [Nat.add_comm]
      exact this

theorem iterate_shift_eq_zero (hpoly : poly.getLsbD (w - 1) = true) {n : ℕ} {c : BitVec w}
    (h : (shift poly)^[n] c = 0#w) : c = 0#w := by
  induction n generalizing c with
  | zero => exact h
  | succ n ih => exact shift_eq_zero hpoly (ih h)

/-! ## A byte at a time -/

variable (poly)

theorem xor_low_high (c : BitVec w) : c = c &&& 0xff ^^^ c &&& ~~~0xff := by
  apply BitVec.eq_of_getLsbD_eq
  intro i hi
  simp only [BitVec.getLsbD_xor, BitVec.getLsbD_and, BitVec.getLsbD_not]
  cases c.getLsbD i <;> cases (0xff : BitVec w).getLsbD i <;> simp [hi]

theorem getLsbD_ff (i : ℕ) : (0xff : BitVec w).getLsbD i = decide (i < w ∧ i < 8) := by
  show (BitVec.ofNat w (2 ^ 8 - 1)).getLsbD i = _
  rw [BitVec.getLsbD_ofNat, Nat.testBit_two_pow_sub_one]
  simp

/-- Eight steps are the table's word for the low byte and the rest moved down. -/
theorem iterate_shift_eight (c : BitVec w) :
    (shift poly)^[8] c = (shift poly)^[8] (c &&& 0xff) ^^^ c >>> 8 := by
  have hlow : ∀ i < 8, (c &&& ~~~0xff).getLsbD i = false := by
    intro i hi
    rw [BitVec.getLsbD_and, BitVec.getLsbD_not, getLsbD_ff]
    by_cases hw : i < w <;> simp [hi, hw]
  have hhigh : (c &&& ~~~0xff) >>> 8 = c >>> 8 := by
    apply BitVec.eq_of_getLsbD_eq
    intro i _
    rw [BitVec.getLsbD_ushiftRight, BitVec.getLsbD_ushiftRight, BitVec.getLsbD_and,
      BitVec.getLsbD_not, getLsbD_ff]
    by_cases hw : 8 + i < w
    · simp [hw]
    · rw [BitVec.getLsbD_of_ge c _ (by omega), Bool.false_and]
  conv => lhs; rw [xor_low_high c]
  rw [iterate_shift_xor, iterate_shift_of_low poly hlow, hhigh]

/-- A byte moves the register down by eight and adds the table's word for the low
    byte of the sum. -/
theorem push_eq_table (c : BitVec w) (b : BitVec 8) :
    push poly c b = (shift poly)^[8] ((c ^^^ b.setWidth w) &&& 0xff) ^^^ c >>> 8 := by
  have hb : b.setWidth w >>> 8 = 0#w := by
    apply BitVec.eq_of_getLsbD_eq
    intro i _
    rw [BitVec.getLsbD_ushiftRight, BitVec.getLsbD_setWidth, BitVec.getLsbD_of_ge b _ (by omega)]
    simp
  rw [push, iterate_shift_eight, BitVec.ushiftRight_xor_distrib, hb, BitVec.xor_zero]

theorem run_append (c : BitVec w) (bs cs : List (BitVec 8)) :
    run poly c (bs ++ cs) = run poly (run poly c bs) cs := List.foldl_append ..

/-- The checksum is linear. -/
theorem run_xor (c d : BitVec w) {bs cs : List (BitVec 8)} (h : bs.length = cs.length) :
    run poly c bs ^^^ run poly d cs = run poly (c ^^^ d) (List.zipWith (· ^^^ ·) bs cs) := by
  induction bs generalizing c d cs with
  | nil => rw [List.length_eq_zero_iff.1 h.symm]; rfl
  | cons b bs ih =>
    obtain ⟨b', cs, rfl⟩ := List.exists_cons_of_length_pos (by rw [← h]; simp : 0 < cs.length)
    have hpush : push poly c b ^^^ push poly d b' = push poly (c ^^^ d) (b ^^^ b') := by
      unfold push
      rw [← iterate_shift_xor, BitVec.setWidth_xor]
      congr 1
      ac_rfl
    show run poly (push poly c b) bs ^^^ run poly (push poly d b') cs = _
    rw [ih _ _ (by simpa using h), hpush]
    rfl

/-! ## A bit at a time -/

/-- The register takes a bit. -/
def pushBit (c : BitVec w) (b : Bool) : BitVec w := shift poly (c ^^^ (BitVec.ofBool b).setWidth w)

/-- The bits of a message. -/
def bits (bs : List (BitVec 8)) : List Bool := bs.flatMap fun b => (List.range 8).map b.getLsbD

/-- The word whose lowest bits are given. -/
def word (w : ℕ) : List Bool → BitVec w
  | [] => 0#w
  | b :: l => (BitVec.ofBool b).setWidth w ^^^ word w l <<< 1

theorem getLsbD_word (l : List Bool) (i : ℕ) :
    (word w l).getLsbD i = (decide (i < w) && l.getD i false) := by
  induction l generalizing i with
  | nil => simp [word]
  | cons b l ih =>
    rw [word, BitVec.getLsbD_xor, BitVec.getLsbD_setWidth, BitVec.getLsbD_shiftLeft]
    cases i with
    | zero => simp
    | succ i =>
      rw [Nat.add_sub_cancel, ih, BitVec.getLsbD_of_ge (BitVec.ofBool b) _ (by omega)]
      by_cases hi : i + 1 < w
      · simp [hi, show i < w by omega]
      · simp [hi]

theorem shift_word (l : List Bool) (h : l.length < w) : shift poly (word w l <<< 1) = word w l := by
  have h0 : (word w l <<< 1).getLsbD 0 = false := by simp
  rw [shift, h0, if_neg (by simp)]
  apply BitVec.eq_of_getLsbD_eq
  intro i hi
  rw [BitVec.getLsbD_ushiftRight, BitVec.getLsbD_shiftLeft, getLsbD_word, Nat.add_sub_cancel_left,
    getLsbD_word]
  by_cases hlast : 1 + i < w
  · simp [hlast]
  · rw [List.getD_eq_default _ _ (by omega)]
    simp

/-- Up to `w` bits can be added to the register at once. -/
theorem foldl_pushBit (c : BitVec w) {l : List Bool} (h : l.length ≤ w) :
    l.foldl (pushBit poly) c = (shift poly)^[l.length] (c ^^^ word w l) := by
  induction l generalizing c with
  | nil => simp [word]
  | cons b l ih =>
    have hl : l.length < w := by simpa using h
    rw [List.foldl_cons, ih _ (Nat.le_of_lt hl), List.length_cons, Function.iterate_succ_apply,
      word, ← BitVec.xor_assoc, shift_xor, shift_word poly l hl]
    rfl

theorem foldl_pushBit_zero {l : List Bool} (h : ∀ b ∈ l, b = false) :
    l.foldl (pushBit poly) 0#w = 0#w := by
  induction l with
  | nil => rfl
  | cons b l ih =>
    obtain rfl := h b List.mem_cons_self
    have hpush : pushBit poly 0#w false = 0#w := by simp [pushBit, shift]
    rw [List.foldl_cons, hpush]
    exact ih fun b hb => h b (List.mem_cons_of_mem _ hb)

/-! ### The bits of a message -/

@[simp] theorem length_bits (bs : List (BitVec 8)) : (bits bs).length = 8 * bs.length := by
  induction bs with
  | nil => rfl
  | cons b bs ih =>
    rw [bits, List.flatMap_cons, List.length_append, List.length_map, List.length_range,
      List.length_cons]
    show 8 + (bits bs).length = _
    omega

theorem getD_bits (bs : List (BitVec 8)) (i : ℕ) :
    (bits bs).getD i false = (bs.getD (i / 8) 0).getLsbD (i % 8) := by
  induction bs generalizing i with
  | nil => simp [bits]
  | cons b bs ih =>
    show ((List.range 8).map b.getLsbD ++ bits bs).getD i false = _
    by_cases hi : i < 8
    · rw [List.getD_append _ _ _ _ (by simpa using hi), Nat.div_eq_of_lt hi, Nat.mod_eq_of_lt hi]
      simp [List.getD_eq_getElem?_getD, hi]
    · obtain ⟨j, rfl⟩ : ∃ j, i = j + 8 := ⟨i - 8, by omega⟩
      rw [List.getD_append_right _ _ _ _ (by simp)]
      simpa using ih j

theorem word_bits_byte (b : BitVec 8) :
    word w ((List.range 8).map b.getLsbD) = b.setWidth w := by
  apply BitVec.eq_of_getLsbD_eq
  intro i _
  rw [getLsbD_word, BitVec.getLsbD_setWidth]
  by_cases h : i < 8
  · simp [List.getD_eq_getElem?_getD, h]
  · rw [List.getD_eq_default _ _ (by simpa using h), BitVec.getLsbD_of_ge b i (by omega)]

theorem run_eq_foldl (hw : 8 ≤ w) (c : BitVec w) (bs : List (BitVec 8)) :
    run poly c bs = (bits bs).foldl (pushBit poly) c := by
  induction bs generalizing c with
  | nil => rfl
  | cons b bs ih =>
    show run poly (push poly c b) bs =
      ((List.range 8).map b.getLsbD ++ bits bs).foldl (pushBit poly) c
    rw [List.foldl_append, foldl_pushBit poly c (by simpa using hw), word_bits_byte, ← ih]
    rfl

/-- As many bytes as the register has are added to it at once. -/
theorem run_of_length (hw : 8 ≤ w) (c : BitVec w) {bs : List (BitVec 8)} (h : 8 * bs.length = w) :
    run poly c bs = (shift poly)^[w] (c ^^^ word w (bits bs)) := by
  rw [run_eq_foldl poly hw, foldl_pushBit poly c (by rw [length_bits]; omega), length_bits, h]

/-! ## The residue -/

theorem length_bytes (c : BitVec w) : (bytes c).length = w / 8 := by simp [bytes]

theorem word_bits_bytes (h : 8 ∣ w) (c : BitVec w) : word w (bits (bytes c)) = c := by
  apply BitVec.eq_of_getLsbD_eq
  intro i hi
  have hlt : i / 8 < w / 8 := by omega
  rw [getLsbD_word, getD_bits, decide_eq_true hi, Bool.true_and, List.getD_eq_getElem?_getD]
  simp only [bytes, List.getElem?_map, List.getElem?_range hlt, Option.map_some, Option.getD_some]
  rw [BitVec.getLsbD_extractLsb']
  have hmod : 8 * (i / 8) + i % 8 = i := Nat.div_add_mod i 8
  rw [hmod, decide_eq_true (Nat.mod_lt i (by omega)), Bool.true_and]

/-- Bytes are determined by their word. -/
theorem eq_of_word_bits {bs cs : List (BitVec 8)} (hb : 8 * bs.length = w) (hc : 8 * cs.length = w)
    (h : word w (bits bs) = word w (bits cs)) : bs = cs := by
  apply List.ext_getElem (by omega)
  intro k h1 h2
  apply BitVec.eq_of_getLsbD_eq
  intro i hi
  have hbit := congrArg (fun x => x.getLsbD (8 * k + i)) h
  simp only [getLsbD_word, getD_bits, show (8 * k + i) / 8 = k by omega,
    show (8 * k + i) % 8 = i by omega, show 8 * k + i < w by omega, decide_true,
    Bool.true_and] at hbit
  rwa [List.getD_eq_getElem _ _ h1, List.getD_eq_getElem _ _ h2] at hbit

/-- Behind its own bytes the register is zero. -/
theorem run_bytes (hw : 8 ≤ w) (h : 8 ∣ w) (c : BitVec w) : run poly c (bytes c) = 0#w := by
  rw [run_of_length poly hw c (by rw [length_bytes]; omega), word_bits_bytes h, BitVec.xor_self,
    iterate_shift_zero]

variable {poly}

/-- Behind no other bytes of that number the register is zero. -/
theorem eq_bytes_of_run (hpoly : poly.getLsbD (w - 1) = true) (hw : 8 ≤ w) {c : BitVec w}
    {bs : List (BitVec 8)} (h : 8 * bs.length = w) (hrun : run poly c bs = 0#w) : bs = bytes c := by
  have hdvd : 8 ∣ w := ⟨_, h.symm⟩
  rw [run_of_length poly hw c h] at hrun
  have hc : c = word w (bits bs) := BitVec.xor_eq_zero_iff.1 (iterate_shift_eq_zero hpoly hrun)
  apply eq_of_word_bits h (by rw [length_bytes]; omega)
  rw [word_bits_bytes hdvd, ← hc]

/-! ## Differences within a window -/

/-- A message that is zero but for `w` consecutive bits leaves the register nonzero. -/
theorem foldl_pushBit_ne_zero (hpoly : poly.getLsbD (w - 1) = true) {l : List Bool} {p : ℕ}
    (hout : ∀ k, ¬ (p ≤ k ∧ k < p + w) → l.getD k false = false)
    (hne : ∃ k, l.getD k false = true) : l.foldl (pushBit poly) 0#w ≠ 0#w := by
  have hzero : ∀ {m : List Bool}, (∀ k, m.getD k false = false) → ∀ b ∈ m, b = false := by
    intro m hm b hb
    obtain ⟨k, hk, rfl⟩ := List.mem_iff_getElem.1 hb
    rw [← List.getD_eq_getElem _ false hk]
    exact hm k
  have hbefore : (l.take p).foldl (pushBit poly) 0#w = 0#w := by
    apply foldl_pushBit_zero poly (hzero _)
    intro k
    by_cases hk : k < p
    · have := hout k (by omega)
      rw [List.getD_eq_getElem?_getD] at this ⊢
      rwa [List.getElem?_take_of_lt hk]
    · rw [List.getD_eq_default]
      simp only [List.length_take]
      omega
  have hafter : word w ((l.drop p).take w) ≠ 0#w := by
    obtain ⟨k, hk⟩ := hne
    have hin : p ≤ k ∧ k < p + w := by
      by_contra h
      rw [hout k h] at hk
      cases hk
    obtain ⟨j, rfl⟩ : ∃ j, k = p + j := ⟨k - p, by omega⟩
    intro h
    have := congrArg (fun x => x.getLsbD j) h
    rw [getLsbD_word, List.getD_eq_getElem?_getD, List.getElem?_take_of_lt (by omega),
      List.getElem?_drop, ← List.getD_eq_getElem?_getD, hk, decide_eq_true (by omega)] at this
    simp at this
  have hrest : ∀ b ∈ (l.drop p).drop w, b = false := by
    apply hzero
    intro k
    rw [List.getD_eq_getElem?_getD, List.getElem?_drop, List.getElem?_drop,
      ← List.getD_eq_getElem?_getD]
    exact hout _ (by omega)
  -- The zeros behind the window are steps of the register.
  have hsteps : ∀ {c : BitVec w} {m : List Bool}, (∀ b ∈ m, b = false) →
      m.foldl (pushBit poly) c = (shift poly)^[m.length] c := by
    intro c m hm
    induction m generalizing c with
    | nil => rfl
    | cons b m ih =>
      obtain rfl := hm b List.mem_cons_self
      rw [List.foldl_cons, ih fun b hb => hm b (List.mem_cons_of_mem _ hb)]
      simp [pushBit]
  intro h
  rw [← List.take_append_drop p l, List.foldl_append, hbefore,
    ← List.take_append_drop w (l.drop p), List.foldl_append, hsteps hrest,
    foldl_pushBit poly 0#w (by simp), BitVec.zero_xor] at h
  exact hafter (iterate_shift_eq_zero hpoly (iterate_shift_eq_zero hpoly h))

/-- Bit `k` of a message. -/
def bit (bs : List (BitVec 8)) (k : ℕ) : Bool := (bs.getD (k / 8) 0).getLsbD (k % 8)

/-- Two messages that differ only within `w` consecutive bits have different checksums. -/
theorem run_ne_run_of_window (hpoly : poly.getLsbD (w - 1) = true) (hw : 8 ≤ w) (c : BitVec w)
    {bs cs : List (BitVec 8)} {p : ℕ} (hlen : bs.length = cs.length) (hne : bs ≠ cs)
    (hout : ∀ k, ¬ (p ≤ k ∧ k < p + w) → bit bs k = bit cs k) :
    run poly c bs ≠ run poly c cs := by
  have hbit : ∀ k, (bits (List.zipWith (· ^^^ ·) bs cs)).getD k false =
      (bit bs k ^^ bit cs k) := by
    intro k
    rw [getD_bits, bit, bit, ← BitVec.getLsbD_xor]
    congr 1
    rw [List.getD_eq_getElem?_getD, List.getElem?_zipWith]
    by_cases hk : k / 8 < bs.length
    · simp [List.getD_eq_getElem?_getD, hk, hlen ▸ hk]
    · simp [List.getD_eq_getElem?_getD, hk, hlen ▸ hk]
  have hdiff : ∃ k, bit bs k ≠ bit cs k := by
    by_contra h
    push Not at h
    apply hne
    apply List.ext_getElem hlen
    intro j h1 h2
    apply BitVec.eq_of_getLsbD_eq
    intro i hi
    have := h (8 * j + i)
    rw [bit, bit, show (8 * j + i) / 8 = j by omega, show (8 * j + i) % 8 = i by omega] at this
    rwa [List.getD_eq_getElem _ _ h1, List.getD_eq_getElem _ _ h2] at this
  intro h
  have hxor := run_xor poly c c hlen
  rw [h, BitVec.xor_self, BitVec.xor_self, run_eq_foldl poly hw] at hxor
  apply foldl_pushBit_ne_zero hpoly _ _ hxor.symm
  · exact p
  · intro k hk
    rw [hbit, hout k hk, Bool.xor_self]
  · obtain ⟨k, hk⟩ := hdiff
    refine ⟨k, ?_⟩
    rw [hbit]
    simpa using hk

end Crc
