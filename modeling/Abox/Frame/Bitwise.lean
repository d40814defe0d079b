import Abox.Frame.Crc
import Abox.Lib.Crc

/-!
# The two tables of the frame checksum

`ModbusCrc16` keeps the register in two bytes and looks both of them up. It is
the checksum of `Abox.Lib.Crc` with the polynomial `0xA001` and the initial
value `0xFFFF`.

* `ModbusCrc16_eq_crc16`: the two agree on every frame.
* `modbusCrc16_law`: with the law of the residue, the checksum behind a frame,
  low byte first, is the only pair of bytes that makes the whole have the
  checksum 0.
-/

namespace Abox

/-- `x^16 + x^15 + x^2 + 1`, the lowest bit first. -/
def crc16Poly : BitVec 16 := 0xA001

/-- The register of the bitwise checksum after a frame. -/
def crc16 (frame : List Byte) : BitVec 16 := Crc.run crc16Poly 0xFFFF frame

/-- The two bytes as one register. -/
def CrcState.reg (s : CrcState) : BitVec 16 := s.hi ++ s.lo

/-- An entry of each table is a byte of eight steps of the register. -/
theorem modBusCrcLo_toList : modBusCrcLo.toList = (List.range 256).map fun i =>
    ((Crc.shift crc16Poly)^[8] (BitVec.ofNat 16 i)).extractLsb' 8 8 := by
  decide +kernel

theorem modBusCrcHi_toList : modBusCrcHi.toList = (List.range 256).map fun i =>
    ((Crc.shift crc16Poly)^[8] (BitVec.ofNat 16 i)).extractLsb' 0 8 := by
  decide +kernel

/-- Each pair of entries is eight steps of the register. -/
theorem modBusCrc_table {i : ℕ} (hi : i < 256) :
    (modBusCrcLo.getD i 0 ++ modBusCrcHi.getD i 0 : BitVec 16) =
      (Crc.shift crc16Poly)^[8] (BitVec.ofNat 16 i) := by
  rw [Crc.getD_of_toList modBusCrcLo_toList hi, Crc.getD_of_toList modBusCrcHi_toList hi]
  exact Crc.extractLsb'_append_extractLsb' _

/-- The index into the tables is the low byte of the register with the byte. -/
theorem reg_index (s : CrcState) (b : Byte) :
    (s.reg ^^^ b.setWidth 16) &&& 0xff = BitVec.ofNat 16 (s.lo ^^^ b).toNat := by
  apply BitVec.eq_of_getLsbD_eq
  intro i hi
  rw [BitVec.ofNat_toNat, BitVec.getLsbD_setWidth, BitVec.getLsbD_and, Crc.getLsbD_ff,
    BitVec.getLsbD_xor, BitVec.getLsbD_xor, BitVec.getLsbD_setWidth, CrcState.reg,
    BitVec.getLsbD_append]
  by_cases h : i < 8
  · simp [h, hi]
  · simp [h, BitVec.getLsbD_of_ge s.lo i (by omega), BitVec.getLsbD_of_ge b i (by omega)]

/-- The high byte moves down. -/
theorem reg_shiftRight (s : CrcState) : s.reg >>> 8 = (0#8 ++ s.hi : BitVec 16) := by
  apply BitVec.eq_of_getLsbD_eq
  intro i hi
  rw [BitVec.getLsbD_ushiftRight, CrcState.reg, BitVec.getLsbD_append, BitVec.getLsbD_append]
  by_cases h : i < 8
  · simp [h, show ¬ 8 + i < 8 by omega]
  · simp [h, show ¬ 8 + i < 8 by omega, BitVec.getLsbD_of_ge s.hi i (by omega)]

/-- One pass of the loop is one byte of the bitwise checksum. -/
theorem CrcState.reg_push (s : CrcState) (b : Byte) :
    (s.push b).reg = Crc.push crc16Poly s.reg b := by
  have hadd (x y z : Byte) : (x ++ (z ^^^ y) : BitVec 16) = (x ++ y) ^^^ (0#8 ++ z) := by
    rw [BitVec.xor_append, BitVec.xor_zero, BitVec.xor_comm z]
  rw [Crc.push_eq_table, reg_index, ← modBusCrc_table (s.lo ^^^ b).isLt, reg_shiftRight, ← hadd,
    CrcState.reg, CrcState.push]

theorem reg_crcState (frame : List Byte) : (crcState frame).reg = crc16 frame := by
  unfold crcState crc16 Crc.run
  show _ = List.foldl (Crc.push crc16Poly) (CrcState.reg ⟨0xFF, 0xFF⟩) frame
  generalize (⟨0xFF, 0xFF⟩ : CrcState) = s
  induction frame generalizing s with
  | nil => rfl
  | cons b frame ih => rw [List.foldl_cons, List.foldl_cons, ← CrcState.reg_push, ih]

/-- The two tables compute the bitwise checksum. -/
theorem ModbusCrc16_eq_crc16 (frame : List Byte) : ModbusCrc16 frame = crc16 frame :=
  reg_crcState frame

/-- Behind a frame, the two bytes of its checksum and no others give the checksum 0. -/
theorem crc16_append_eq_zero_iff (frame : List Byte) (lo hi : Byte) :
    crc16 (frame ++ [lo, hi]) = 0 ↔ [lo, hi] = crcBytes (crc16 frame) := by
  have hbytes : crcBytes (crc16 frame) = Crc.bytes (crc16 frame) := rfl
  have hrun : crc16 (frame ++ [lo, hi]) = Crc.run crc16Poly (crc16 frame) [lo, hi] :=
    Crc.run_append ..
  rw [hrun, hbytes]
  constructor
  · exact Crc.eq_bytes_of_run (by decide) (by decide) rfl
  · intro h
    rw [h]
    exact Crc.run_bytes crc16Poly (by decide) (by decide) _

/-- `ModbusCrc16` is the bitwise checksum, and exactly the two bytes of the checksum
    of a frame, low byte first, give the checksum 0 behind it. -/
theorem modbusCrc16_law (frame : List Byte) :
    ModbusCrc16 frame = Crc.run (0xA001 : BitVec 16) 0xFFFF frame ∧
      ModbusCrc16 (frame ++ [(ModbusCrc16 frame).extractLsb' 0 8,
        (ModbusCrc16 frame).extractLsb' 8 8]) = 0 ∧
      ∀ b0 b1 : Byte, ModbusCrc16 (frame ++ [b0, b1]) = 0 →
        b0 = (ModbusCrc16 frame).extractLsb' 0 8 ∧ b1 = (ModbusCrc16 frame).extractLsb' 8 8 := by
  refine ⟨ModbusCrc16_eq_crc16 frame, ModbusCrc16_append frame, ?_⟩
  intro b0 b1 h
  rw [ModbusCrc16_eq_crc16, crc16_append_eq_zero_iff, ← ModbusCrc16_eq_crc16] at h
  obtain ⟨h0, h1, -⟩ : b0 = _ ∧ b1 = _ ∧ True := by simpa [crcBytes] using h
  exact ⟨h0, h1⟩

end Abox
