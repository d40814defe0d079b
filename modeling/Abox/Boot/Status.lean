import Abox.Boot.Recovery

/-!
# The bootloader and the status of the flash

`main` of the bootloader again, with what the flash interface reports. An
operation of `bootloader/Libraries/STM32F4xx_StdPeriph_Driver/src/stm32f4xx_flash.c`
looks at the flags in `FLASH->SR` before it starts and after it has ended. One
that fails sets an error flag, and may change the bytes it is about in any way. An
error flag stays until `FLASH_ClearFlag` is called, which no function called by
`main` does.

A read behind the flash ends in `BusFault_Handler`, which never returns.

* `FLASH_operation`: what the three operations have in common.
* `complete_iff`, `not_complete_or`: the status is `FLASH_COMPLETE` as long as no
  operation has failed.
* `checkFlashFile_iff`: which staged images are accepted.
-/

namespace Abox.Boot.Status

open Nor PowerCut Flash

/-! ## The flash interface -/

/-- `FLASH_Status`, without the values that are never returned. -/
inductive FlashStatus
  | busy
  | errorWrp
  | errorProgram
  | errorOperation
  | complete
  deriving DecidableEq

/-- `FLASH_GetStatus` (`stm32f4xx_flash.c` lines 979–1014). -/
def FLASH_GetStatus (sr : BitVec 32) : FlashStatus :=
  if sr &&& 0x10000 = 0x10000 then .busy
  else if sr &&& 0x10 ≠ 0 then .errorWrp
  else if sr &&& 0xEF ≠ 0 then .errorProgram
  else if sr &&& 0x02 ≠ 0 then .errorOperation
  else .complete

/-- `FLASH_WaitForLastOperation` (lines 1022–1038): the status once
    `FLASH_FLAG_BSY` is reset. -/
def FLASH_WaitForLastOperation (sr : BitVec 32) : FlashStatus :=
  FLASH_GetStatus (sr &&& ~~~0x10000)

/-- An operation on the flash. -/
inductive Operation
  | eraseSector (sector : ℕ)
  | programWord (address : ℕ)
  | programByte (address : ℕ)
  deriving DecidableEq

/-- The bytes an operation is about. -/
def Operation.Targets : Operation → ℕ → Prop
  | .eraseSector sector, k =>
    addrFlashSector.getD sector flashEnd ≤ k ∧ k < addrFlashSector.getD (sector + 1) flashEnd
  | .programWord address, k => address ≤ k ∧ k < address + 4
  | .programByte address, k => k = address

instance (op : Operation) (k : ℕ) : Decidable (op.Targets k) :=
  match op with
  | .eraseSector _ => inferInstanceAs (Decidable (_ ∧ _))
  | .programWord _ => inferInstanceAs (Decidable (_ ∧ _))
  | .programByte _ => inferInstanceAs (Decidable (_ = _))

/-- A failure: the flags it sets, at least one of those `FLASH_GetStatus` looks at,
    and what it leaves in the bytes the operation is about. -/
structure Fault where
  flags : BitVec 32
  mem : Mem
  failed : flags &&& 0xFF ≠ 0

/-- The flash, `FLASH->SR`, the failures of the operations to come, and the
    operations so far with the status each has reported. -/
structure Chip where
  mem : Mem
  sr : BitVec 32
  fault : ℕ → Option Fault
  log : List (Operation × FlashStatus)

/-- The operation `op`, which makes `f` of the memory, is started. -/
def Chip.start (op : Operation) (f : Mem → Mem) (c : Chip) : Chip :=
  match c.fault 0 with
  | none => { c with mem := f c.mem, fault := fun n => c.fault (n + 1) }
  | some fault =>
    { c with
      mem := fun k => if op.Targets k then fault.mem k else c.mem k
      sr := c.sr ||| fault.flags
      fault := fun n => c.fault (n + 1) }

def Chip.report (op : Operation) (status : FlashStatus) (c : Chip) : Chip :=
  { c with log := c.log ++ [(op, status)] }

/-- What `FLASH_EraseSector`, `FLASH_ProgramWord` and `FLASH_ProgramByte` have in
    common. -/
def FLASH_operation (op : Operation) (f : Mem → Mem) : Prog Chip FlashStatus := do
  let status ← Prog.get fun c => FLASH_WaitForLastOperation c.sr
  if status = .complete then
    Prog.op (Chip.start op f)
    let status ← Prog.get fun c => FLASH_WaitForLastOperation c.sr
    Prog.record (Chip.report op status)
    return status
  else
    Prog.record (Chip.report op status)
    return status

/-- `FLASH_EraseSector` (lines 341–387). -/
def FLASH_EraseSector (sector : ℕ) : Prog Chip FlashStatus :=
  FLASH_operation (.eraseSector sector) fun m => Flash.FLASH_EraseSector m sector

/-- `FLASH_ProgramWord` (lines 497–524). -/
def FLASH_ProgramWord (address : ℕ) (data : BitVec 32) : Prog Chip FlashStatus := do
  Prog.assert (isFlashAddress address)
  FLASH_operation (.programWord address) fun m => programs m address (Layout.word.encode data)

/-- `FLASH_ProgramByte` (lines 573–601). -/
def FLASH_ProgramByte (address : ℕ) (data : Byte) : Prog Chip FlashStatus := do
  Prog.assert (isFlashAddress address)
  FLASH_operation (.programByte address) fun m => program m address data

/-! ## The functions of `flash_control.c` -/

/-- A read of `n` bytes: it faults if they are not all in front of the end of the
    flash. -/
def readFlash (readAddr n : ℕ) (f : Mem → α) : Prog Chip α := do
  Prog.assert (decide (readAddr + n ≤ flashEnd))
  Prog.get fun c => f c.mem

/-- `STMFLASH_Read` (lines 190–200). -/
def STMFLASH_Read (readAddr numToRead : ℕ) : Prog Chip (List (BitVec 32)) :=
  readFlash readAddr (4 * numToRead) fun m =>
    (List.range numToRead).map fun i => STMFLASH_ReadWord m (readAddr + 4 * i)

/-- `STMFLASH_ReadMoreByte` (lines 140–150). -/
def STMFLASH_ReadMoreByte (readAddr numToRead : ℕ) : Prog Chip (List Byte) :=
  readFlash readAddr numToRead fun m => read m readAddr numToRead

/-- `STMFLASH_Write` (lines 102–133): it stops at an operation that does not
    complete. -/
def STMFLASH_Write (writeAddr : ℕ) : List (BitVec 32) → Prog Chip Unit
  | [] => pure ()
  | w :: pBuffer => do
    let status ← FLASH_ProgramWord writeAddr w
    if status = .complete then STMFLASH_Write (writeAddr + 4) pBuffer else pure ()

/-- The loop of `writeByteToFlash`. -/
def programBytes (writeAddr : ℕ) : List Byte → Prog Chip Unit
  | [] => pure ()
  | b :: data => do
    let status ← FLASH_ProgramByte writeAddr b
    if status = .complete then programBytes (writeAddr + 1) data else pure ()

/-- `writeByteToFlash` (lines 152–183). -/
def writeByteToFlash (writeAddr : ℕ) (data : List Byte) : Prog Chip Unit :=
  if writeAddr = 0 ∨ data = [] then pure () else programBytes writeAddr data

/-- A loop over addresses whose sectors are erased, up to the first erase that
    does not complete. -/
def eraseSectors : List ℕ → Prog Chip Unit
  | [] => pure ()
  | dataAddr :: rest => do
    let status ← FLASH_EraseSector (STMFLASH_GetFlashSector dataAddr)
    if status = .complete then eraseSectors rest else pure ()

/-- `clearSaveDataSector` (lines 204–227): sectors 9 to 11. -/
def clearSaveDataSector : Prog Chip Unit :=
  eraseSectors ((List.range 3).map fun i => updataAppAddr + 0x20000 * i)

/-- `clearAppDataSector` (lines 230–280): sectors 2 to 6. -/
def clearAppDataSector : Prog Chip Unit :=
  eraseSectors [applicationAddress, 0x0800C000, 0x08010000, 0x08020000, 0x08040000]

/-- `checkFlashFile` (lines 316–331), with `calc_flash_crc`. -/
def checkFlashFile : Prog Chip ℕ := do
  let flen ← readFlash updataAppAddr 4 fun m => STMFLASH_ReadWord m updataAppAddr
  if flen ≠ 0 ∧ flen ≠ 0xffffffff then
    readFlash (updataAppAddr + 4) flen.toNat fun m =>
      if calcFlashCrc m (updataAppAddr + 4) flen.toNat = 0 then 0 else 1
  else return 1

/-! ## `main` -/

/-- The loop of `main` (`main.c` lines 195–217). -/
def copyApp (readAddr writeAddr fileLen : ℕ) : Prog Chip Unit :=
  if bufSize < fileLen then do
    let buf ← STMFLASH_Read readAddr (bufSize / 4)
    STMFLASH_Write writeAddr buf
    copyApp (readAddr + bufSize) (writeAddr + bufSize) (fileLen - bufSize)
  else do
    let buf ← STMFLASH_ReadMoreByte readAddr fileLen
    writeByteToFlash writeAddr buf
    clearSaveDataSector
termination_by fileLen
decreasing_by
  unfold bufSize at *
  omega

/-- `main` (lines 178–223), up to the call of `IAP_BOOT`. -/
def main : Prog Chip Unit := do
  let fileLen ← readFlash updataAppAddr 4 fun m => STMFLASH_ReadWord m updataAppAddr
  if fileLen ≠ 0 ∧ fileLen ≠ 0xffffffff then
    let ret ← checkFlashFile
    if ret ≠ 0 then
      clearSaveDataSector
    else
      clearAppDataSector
      copyApp (updataAppAddr + 4) applicationAddress fileLen.toNat

/-! ## The status -/

/-- The status says that no flag is set. -/
theorem complete_iff (sr : BitVec 32) :
    FLASH_WaitForLastOperation sr = .complete ↔ sr &&& 0xFF = 0 := by
  have hbusy : ¬ (sr &&& ~~~0x10000) &&& 0x10000 = 0x10000 := by
    rw [BitVec.and_assoc, show (~~~0x10000 : BitVec 32) &&& 0x10000 = 0#32 by decide,
      BitVec.and_zero]
    decide
  have hmask : ∀ m : BitVec 32, ~~~0x10000 &&& m = m → (sr &&& ~~~0x10000) &&& m = sr &&& m :=
    fun m hm => by rw [BitVec.and_assoc, hm]
  have hsplit : sr &&& 0xFF = (sr &&& 0x10) ||| (sr &&& 0xEF) := by
    rw [← BitVec.and_or_distrib_left]
    congr 1
  unfold FLASH_WaitForLastOperation FLASH_GetStatus
  rw [if_neg hbusy, hmask 0x10 (by decide), hmask 0xEF (by decide), hmask 0x02 (by decide), hsplit]
  rw [show (sr &&& 0x10 ||| sr &&& 0xEF) = 0 ↔ sr &&& 0x10 = 0 ∧ sr &&& 0xEF = 0 from
    BitVec.or_eq_zero_iff]
  by_cases h1 : sr &&& 0x10 = 0
  · by_cases h2 : sr &&& 0xEF = 0
    · have h3 : sr &&& 0x02 = 0 := by
        rw [show (0x02 : BitVec 32) = 0xEF &&& 0x02 by decide, ← BitVec.and_assoc, h2]
        exact BitVec.zero_and
      rw [if_neg (not_not.2 h1), if_neg (not_not.2 h2), if_neg (not_not.2 h3)]
      exact iff_of_true rfl ⟨h1, h2⟩
    · rw [if_neg (not_not.2 h1), if_pos h2]
      exact iff_of_false (by decide) fun h => h2 h.2
  · rw [if_pos h1]
    exact iff_of_false (by decide) fun h => h1 h.1

/-- A failure is reported, by the operation itself and by all that follow. -/
theorem not_complete_or (sr : BitVec 32) (fault : Fault) :
    FLASH_WaitForLastOperation (sr ||| fault.flags) ≠ .complete := by
  rw [ne_eq, complete_iff, BitVec.and_comm, BitVec.and_or_distrib_left]
  intro h
  apply fault.failed
  rw [BitVec.and_comm]
  exact (BitVec.or_eq_zero_iff.1 h).2

/-! ## The check of the staged image -/

theorem readFlash_run {readAddr n : ℕ} (h : readAddr + n ≤ flashEnd) (f : Mem → α) (c : Chip)
    (power : Option ℕ) : readFlash readAddr n f c power = .done (f c.mem) c power := by
  have hassert : Prog.assert (decide (readAddr + n ≤ flashEnd)) c power = .done () c power :=
    if_pos (decide_eq_true h)
  show (Prog.assert _ >>= fun _ => Prog.get fun c => f c.mem) c power = _
  rw [Prog.bind_of_done hassert]
  rfl

theorem readFlash_hang {readAddr n : ℕ} (h : ¬ readAddr + n ≤ flashEnd) (f : Mem → α) (c : Chip)
    (power : Option ℕ) : readFlash readAddr n f c power = .hang := by
  have hassert : Prog.assert (decide (readAddr + n ≤ flashEnd)) c power = .hang :=
    if_neg (by simpa using h)
  show Prog.bind (Prog.assert _) (fun _ => Prog.get fun c => f c.mem) c power = _
  unfold Prog.bind
  rw [hassert]

/-- The staged image is accepted: its CRC is right, and it does not reach behind the
    flash. -/
theorem checkFlashFile_iff (c : Chip) (power : Option ℕ) :
    checkFlashFile c power = .done 0 c power ↔
      Boot.checkFlashFile c.mem = 0 ∧ updataAppAddr + 4 + stagedLen c.mem ≤ flashEnd := by
  have hword : readFlash updataAppAddr 4 (fun m => STMFLASH_ReadWord m updataAppAddr) c power =
      .done (STMFLASH_ReadWord c.mem updataAppAddr) c power := readFlash_run (by decide) ..
  unfold checkFlashFile
  rw [Prog.bind_of_done hword]
  unfold Boot.checkFlashFile
  by_cases hcond : STMFLASH_ReadWord c.mem updataAppAddr ≠ 0 ∧
      STMFLASH_ReadWord c.mem updataAppAddr ≠ 0xffffffff
  · rw [if_pos hcond, if_pos hcond]
    show readFlash (updataAppAddr + 4) (stagedLen c.mem) _ c power = _ ↔ _
    by_cases hfits : updataAppAddr + 4 + stagedLen c.mem ≤ flashEnd
    · rw [readFlash_run hfits]
      constructor
      · intro h
        injection h with hret
        exact ⟨hret, hfits⟩
      · intro h
        rw [h.1]
    · rw [readFlash_hang hfits]
      constructor
      · intro h
        cases h
      · intro h
        exact absurd h.2 hfits
  · rw [if_neg hcond, if_neg hcond]
    constructor
    · intro h
      cases h
    · intro h
      cases h.1

end Abox.Boot.Status
