import Abox.Flash.Crc
import Abox.Lib.Layout
import Abox.Lib.PowerCut

/-!
# The bootloader

Model of `main` of the bootloader (`bootloader/app/main.c` lines 147–225) and
of the flash functions it calls (`bootloader/app/flash_control.c`). A staged
image lies in sectors 9 to 11, behind its length; `main` checks it, erases the
application in sectors 2 to 6, copies the image there and erases the staging
sectors. `main` ends where it calls `IAP_BOOT`.

An operation on the flash is one erase of a sector or one programmed word or
byte; an operation that is carried out succeeds. The set-up of the hardware and
the output on the serial line are left out.
-/

namespace Abox.Boot

open Nor PowerCut Flash

/-- `APPLICATION_ADDRESS` (`flash_if.h` line 71), sector 2. -/
def applicationAddress : ℕ := 0x08008000

/-- The size of sectors 2 to 6. -/
def appSize : ℕ := 0x58000

/-- `FLASH_EraseSector`. -/
def FLASH_EraseSector (sector : ℕ) : Prog Mem Unit :=
  Prog.op fun m => Flash.FLASH_EraseSector m sector

/-- `FLASH_ProgramByte`. -/
def FLASH_ProgramByte (address : ℕ) (data : Byte) : Prog Mem Unit := do
  Prog.assert (isFlashAddress address)
  Prog.op fun m => program m address data

/-- `FLASH_ProgramWord`: four bytes at once. -/
def FLASH_ProgramWord (address : ℕ) (data : BitVec 32) : Prog Mem Unit := do
  Prog.assert (isFlashAddress address)
  Prog.op fun m => programs m address (Layout.word.encode data)

/-- `STMFLASH_Read`. -/
def STMFLASH_Read (readAddr numToRead : ℕ) : Prog Mem (List (BitVec 32)) :=
  Prog.get fun m => (List.range numToRead).map fun i => STMFLASH_ReadWord m (readAddr + 4 * i)

/-- `STMFLASH_ReadMoreByte`. -/
def STMFLASH_ReadMoreByte (readAddr numToRead : ℕ) : Prog Mem (List Byte) :=
  Prog.get fun m => read m readAddr numToRead

/-- `STMFLASH_Write` (`flash_control.c` lines 102–133). -/
def STMFLASH_Write (writeAddr : ℕ) : List (BitVec 32) → Prog Mem Unit
  | [] => pure ()
  | w :: pBuffer => do
    FLASH_ProgramWord writeAddr w
    STMFLASH_Write (writeAddr + 4) pBuffer

/-- The loop of `writeByteToFlash`. -/
def programBytes (writeAddr : ℕ) : List Byte → Prog Mem Unit
  | [] => pure ()
  | b :: data => do
    FLASH_ProgramByte writeAddr b
    programBytes (writeAddr + 1) data

/-- `writeByteToFlash` (`flash_control.c` lines 152–183). -/
def writeByteToFlash (writeAddr : ℕ) (data : List Byte) : Prog Mem Unit :=
  if writeAddr = 0 ∨ data = [] then pure () else programBytes writeAddr data

/-- `clearSaveDataSector` (`flash_control.c` lines 204–227): sectors 9 to 11. -/
def clearSaveDataSector : Prog Mem Unit :=
  (List.range 3).forM fun i =>
    FLASH_EraseSector (STMFLASH_GetFlashSector (updataAppAddr + 0x20000 * i))

/-- `clearAppDataSector` (`flash_control.c` lines 230–280): sectors 2 to 6. -/
def clearAppDataSector : Prog Mem Unit :=
  [applicationAddress, 0x0800C000, 0x08010000, 0x08020000, 0x08040000].forM fun dataAddr =>
    FLASH_EraseSector (STMFLASH_GetFlashSector dataAddr)

/-- `checkFlashFile` (`flash_control.c` lines 316–331); 0 if the staged image is
    good. -/
def checkFlashFile (m : Mem) : ℕ :=
  let flen := STMFLASH_ReadWord m updataAppAddr
  if flen ≠ 0 ∧ flen ≠ 0xffffffff then
    if calcFlashCrc m (updataAppAddr + 4) flen.toNat = 0 then 0 else 1
  else 1

/-- The loop of `main` (lines 195–217). -/
def copyApp (readAddr writeAddr fileLen : ℕ) : Prog Mem Unit :=
  if bufSize < fileLen then do
    let buf ← STMFLASH_Read readAddr (bufSize / 4)
    STMFLASH_Write writeAddr buf
    copyApp (readAddr + bufSize) (writeAddr + bufSize) (fileLen - bufSize)
  else do
    let buf ← STMFLASH_ReadMoreByte readAddr fileLen
    writeByteToFlash writeAddr buf
    clearSaveDataSector
termination_by fileLen
decreasing_by
  unfold bufSize at *
  omega

/-- `main` (lines 178–223), up to the call of `IAP_BOOT`. -/
def main : Prog Mem Unit := do
  let fileLen ← Prog.get fun m => STMFLASH_ReadWord m updataAppAddr
  if fileLen ≠ 0 ∧ fileLen ≠ 0xffffffff then
    let ret ← Prog.get checkFlashFile
    if ret ≠ 0 then
      clearSaveDataSector
    else
      clearAppDataSector
      copyApp (updataAppAddr + 4) applicationAddress fileLen.toNat

end Abox.Boot
