import Abox.Basic
import Abox.Lib.Nor

/-!
# Access to the flash

Model of the functions of `Abox/src/flash_control.c` that read, program and
erase the internal flash, over the memory of `Abox.Lib.Nor`. An erase or a
programming operation that is carried out succeeds (`FLASH_COMPLETE`).

`FLASH_ProgramByte` checks its address with `assert_param`, and
`assert_failed` never returns: a result `none` means that the program hangs.
-/

namespace Abox.Flash

open Nor

/-- `ADDR_FLASH_SECTOR_0` … `ADDR_FLASH_SECTOR_11` (`flash_if.h`). -/
def addrFlashSector : List ℕ :=
  [0x08000000, 0x08004000, 0x08008000, 0x0800C000, 0x08010000, 0x08020000, 0x08040000,
    0x08060000, 0x08080000, 0x080A0000, 0x080C0000, 0x080E0000]

/-- The first address behind the flash. -/
def flashEnd : ℕ := 0x08100000

/-- `UPDATA_APP_ADDR` (`mydef.h` line 39), sector 9. -/
def updataAppAddr : ℕ := 0x080A0000

/-- `STMFLASH_GetFlashSector` (`flash_control.c` lines 26–40): the number of the
    sector of `addr`, 11 also for addresses behind the flash. -/
def STMFLASH_GetFlashSector (addr : ℕ) : ℕ :=
  (((addrFlashSector.drop 1).findIdx? fun base => decide (addr < base)).getD 11)

/-- `FLASH_EraseSector`: all bytes of sector `sector` become `0xFF`. -/
def FLASH_EraseSector (m : Mem) (sector : ℕ) : Mem :=
  let base := addrFlashSector.getD sector flashEnd
  erase m base (addrFlashSector.getD (sector + 1) flashEnd - base)

/-- `IS_FLASH_ADDRESS` (`stm32f4xx_flash.h` lines 139–140). The last byte of the
    flash does not pass. -/
def isFlashAddress (a : ℕ) : Bool :=
  (decide (0x08000000 ≤ a) && decide (a < 0x080FFFFF)) ||
    (decide (0x1FFF7800 ≤ a) && decide (a < 0x1FFF7A0F))

/-- `FLASH_ProgramByte` (`stm32f4xx_flash.c` lines 573–601). -/
def FLASH_ProgramByte (m : Mem) (address : ℕ) (data : Byte) : Option Mem :=
  if isFlashAddress address then some (program m address data) else none

/-- The loop of `writeByteToFlash`. -/
def programBytes (m : Mem) (writeAddr : ℕ) : List Byte → Option Mem
  | [] => some m
  | b :: data => (FLASH_ProgramByte m writeAddr b).bind fun m => programBytes m (writeAddr + 1) data

/-- `writeByteToFlash` (`flash_control.c` lines 162–195) on a buffer of `len`
    bytes. -/
def writeByteToFlash (m : Mem) (writeAddr : ℕ) (data : List Byte) : Option (RtErr × Mem) :=
  if writeAddr = 0 ∨ data = [] then some (.rtError, m)
  else (programBytes m writeAddr data).map fun m => (.rtEok, m)

/-- `STMFLASH_ReadMoreByte` (`flash_control.c` lines 150–160). -/
def STMFLASH_ReadMoreByte (m : Mem) (readAddr numToRead : ℕ) : List Byte :=
  read m readAddr numToRead

/-- `STMFLASH_ReadWord` (`flash_control.c` lines 19–22), little-endian. -/
def STMFLASH_ReadWord (m : Mem) (faddr : ℕ) : BitVec 32 := u32At (read m faddr 4) 0

/-- `STMFLASH_Read` (`flash_control.c` lines 202–212): `numToRead` words, as the
    bytes they are in memory. -/
def STMFLASH_Read (m : Mem) (readAddr numToRead : ℕ) : List Byte := read m readAddr (4 * numToRead)

/-! ## Specifications -/

theorem readWord_congr {m m' : Mem} {a : ℕ} (h : ∀ k, a ≤ k → k < a + 4 → m' k = m k) :
    STMFLASH_ReadWord m' a = STMFLASH_ReadWord m a := by
  unfold STMFLASH_ReadWord
  rw [read_congr h]

theorem readWord_of_erased {m : Mem} {a : ℕ} (h : Erased m a 4) :
    STMFLASH_ReadWord m a = 0xffffffff := by
  have hread : read m a 4 = read (fun _ => 0xFF) a 4 := read_congr h
  unfold STMFLASH_ReadWord
  rw [hread]
  show u32At [0xFF, 0xFF, 0xFF, 0xFF] 0 = 0xffffffff
  decide

/-- In the flash, bytes are programmed as in `Nor.programs`. -/
theorem programBytes_eq {m : Mem} {writeAddr : ℕ} {data : List Byte}
    (h : ∀ k < data.length, isFlashAddress (writeAddr + k) = true) :
    programBytes m writeAddr data = some (programs m writeAddr data) := by
  induction data generalizing m writeAddr with
  | nil => rfl
  | cons b data ih =>
    have h0 : isFlashAddress writeAddr = true := by
      have := h 0 (by simp)
      rwa [Nat.add_zero] at this
    rw [programBytes, FLASH_ProgramByte, if_pos h0, Option.bind_some, programs]
    apply ih
    intro k hk
    have := h (k + 1) (by simpa using hk)
    rwa [show writeAddr + 1 + k = writeAddr + (k + 1) by omega]

theorem isFlashAddress_of_lt {a : ℕ} (h1 : 0x08000000 ≤ a) (h2 : a < 0x080FFFFF) :
    isFlashAddress a = true := by
  simp [isFlashAddress, h1, h2]

/-- Bytes can only be programmed in the flash. -/
theorem isFlashAddress_of_programBytes {m m' : Mem} {writeAddr : ℕ} {data : List Byte}
    (h : programBytes m writeAddr data = some m') :
    ∀ k < data.length, isFlashAddress (writeAddr + k) = true := by
  induction data generalizing m writeAddr with
  | nil => exact fun k hk => absurd hk (Nat.not_lt_zero k)
  | cons b data ih =>
    rw [programBytes, FLASH_ProgramByte] at h
    by_cases hb : isFlashAddress writeAddr = true
    · rw [if_pos hb, Option.bind_some] at h
      intro k hk
      cases k with
      | zero => exact hb
      | succ k =>
        have := ih h k (by simpa using hk)
        rwa [show writeAddr + (k + 1) = writeAddr + 1 + k by omega]
    · rw [if_neg hb] at h
      cases h

/-- A write that returns has programmed its bytes, all of them in the flash. -/
theorem writeByteToFlash_some {m m' : Mem} {writeAddr : ℕ} {data : List Byte} {r : RtErr}
    (h : writeByteToFlash m writeAddr data = some (r, m')) (h0 : writeAddr ≠ 0) :
    m' = programs m writeAddr data ∧
      ∀ k < data.length, isFlashAddress (writeAddr + k) = true := by
  unfold writeByteToFlash at h
  by_cases hnil : data = []
  · rw [if_pos (Or.inr hnil)] at h
    cases h
    subst hnil
    exact ⟨rfl, fun k hk => absurd hk (Nat.not_lt_zero k)⟩
  · rw [if_neg (by simp [h0, hnil])] at h
    obtain ⟨m1, hm1, hres⟩ := Option.map_eq_some_iff.1 h
    cases hres
    have hflash := isFlashAddress_of_programBytes hm1
    rw [programBytes_eq hflash] at hm1
    exact ⟨(Option.some.inj hm1).symm, hflash⟩

/-- A write that returns has at most cleared some bits. -/
theorem cleared_of_writeByteToFlash {m m' : Mem} {writeAddr : ℕ} {data : List Byte} {r : RtErr}
    (h : writeByteToFlash m writeAddr data = some (r, m')) : Cleared m m' := by
  by_cases h0 : writeAddr = 0
  · rw [writeByteToFlash, if_pos (Or.inl h0)] at h
    cases h
    exact Cleared.refl m
  · rw [(writeByteToFlash_some h h0).1]
    exact cleared_programs m writeAddr data

/-- The bytes of a write in the flash end before its last byte. -/
theorem le_of_isFlashAddress {a n : ℕ} (h1 : 0x08000000 ≤ a) (h2 : a ≤ 0x080FFFFF)
    (h : ∀ k < n, isFlashAddress (a + k) = true) : a + n ≤ 0x080FFFFF := by
  by_contra hlt
  have := h (0x080FFFFF - a) (by omega)
  rw [show a + (0x080FFFFF - a) = 0x080FFFFF by omega] at this
  cases this

theorem writeByteToFlash_eq {m : Mem} {writeAddr : ℕ} {data : List Byte} (h0 : data ≠ [])
    (h1 : 0x08000000 ≤ writeAddr) (h2 : writeAddr + data.length ≤ 0x080FFFFF) :
    writeByteToFlash m writeAddr data = some (.rtEok, programs m writeAddr data) := by
  have hne : ¬ (writeAddr = 0 ∨ data = []) := by
    rintro (h | h)
    · omega
    · exact h0 h
  rw [writeByteToFlash, if_neg hne, programBytes_eq, Option.map_some]
  intro k hk
  exact isFlashAddress_of_lt (by omega) (by omega)

end Abox.Flash
