import Abox.Flash.Control

/-!
# The records of sector 1

Model of `setSecret_1` (`Abox/src/flash_control.c` lines 43–99). Sector 1 holds
three records: the system setup, the frequency information and the server and
network information. A save of one of them reads all three, erases the sector
and programs all three.

* `setSecret_1_eq`: one save changes the saved record and no other one.
* `setSecret_1_saves`: after any saves each record reads as last saved.
-/

namespace Abox.Flash

open Nor

/-- `DATA_ADDR` (`mydef.h` line 31), the start of sector 1. -/
def dataAddr : ℕ := 0x08004000

/-- `sizeof(stSysSetup)`, packed. -/
def sizeofStSysSetup : ℕ := 306

/-- `sizeof(freq_information)`, packed. -/
def sizeofFreqInformation : ℕ := 64

/-- `sizeof(serverNet_information)`, packed. -/
def sizeofServerNetInformation : ℕ := 228

/-- `DATA_FREQ_ADDR` (`mydef.h` line 34). -/
def dataFreqAddr : ℕ := dataAddr + sizeofStSysSetup

/-- `SERVER_NET_INFO_ADDR` (`mydef.h` line 35). -/
def serverNetInfoAddr : ℕ := dataAddr + 0x400

/-- `setSecret_1` (`flash_control.c` lines 43–99). -/
def setSecret_1 (m : Mem) (writeAddr : ℕ) (pBuffer : List Byte) : Option Mem :=
  if STMFLASH_GetFlashSector writeAddr = 1 then do
    let setup_temp := STMFLASH_ReadMoreByte m dataAddr sizeofStSysSetup
    let freqInfo := STMFLASH_ReadMoreByte m dataFreqAddr sizeofFreqInformation
    let serNetInfo := STMFLASH_ReadMoreByte m serverNetInfoAddr sizeofServerNetInformation
    let setup_temp :=
      if writeAddr = dataAddr then readN pBuffer sizeofStSysSetup else setup_temp
    let freqInfo :=
      if writeAddr = dataFreqAddr then readN pBuffer sizeofFreqInformation else freqInfo
    let serNetInfo :=
      if writeAddr = serverNetInfoAddr then readN pBuffer sizeofServerNetInformation
      else serNetInfo
    let m := FLASH_EraseSector m 1
    let (_, m) ← writeByteToFlash m dataAddr setup_temp
    let (_, m) ← writeByteToFlash m dataFreqAddr freqInfo
    let (_, m) ← writeByteToFlash m serverNetInfoAddr serNetInfo
    return m
  else some m

/-! ## The three records -/

/-- The records of sector 1. -/
inductive Record
  | setup
  | freq
  | server
  deriving DecidableEq

/-- Where a record is stored. -/
def Record.addr : Record → ℕ
  | .setup => dataAddr
  | .freq => dataFreqAddr
  | .server => serverNetInfoAddr

/-- The size of a record. -/
def Record.size : Record → ℕ
  | .setup => sizeofStSysSetup
  | .freq => sizeofFreqInformation
  | .server => sizeofServerNetInformation

/-- A record, read back. -/
def Record.load (r : Record) (m : Mem) : List Byte := STMFLASH_ReadMoreByte m r.addr r.size

/-- The contents of a record. -/
structure Value (r : Record) where
  bytes : List Byte
  length_eq : bytes.length = r.size

/-- The records do not overlap. -/
theorem Record.disjoint {r s : Record} (h : r ≠ s) :
    r.addr + r.size ≤ s.addr ∨ s.addr + s.size ≤ r.addr := by
  cases r <;> cases s <;> first | exact absurd rfl h | decide

theorem Record.in_sector (r : Record) : STMFLASH_GetFlashSector r.addr = 1 ∧
    0x08004000 ≤ r.addr ∧ r.addr + r.size ≤ 0x08008000 := by
  cases r <;> decide

/-- What one of the three writes of `setSecret_1` does to the sector. -/
theorem write_record {m : Mem} (r : Record) {bs : List Byte} (hbs : bs.length = r.size) :
    writeByteToFlash m r.addr bs = some (.rtEok, programs m r.addr bs) := by
  obtain ⟨-, h1, h2⟩ := r.in_sector
  apply writeByteToFlash_eq
  · rintro rfl
    cases r <;> cases hbs
  · omega
  · omega

theorem Record.addr_inj {r s : Record} : r.addr = s.addr ↔ r = s := by
  cases r <;> cases s <;> decide

/-- What `setSecret_1` programs as record `s`. -/
def written (m : Mem) (writeAddr : ℕ) (pBuffer : List Byte) (s : Record) : List Byte :=
  if writeAddr = s.addr then readN pBuffer s.size else s.load m

theorem length_written (m : Mem) (writeAddr : ℕ) (pBuffer : List Byte) (s : Record) :
    (written m writeAddr pBuffer s).length = s.size := by
  unfold written
  split_ifs
  · exact length_readN ..
  · exact length_read ..

theorem written_self (m : Mem) (r : Record) (v : Value r) :
    written m r.addr v.bytes r = v.bytes := by
  unfold written
  rw [if_pos rfl, ← v.length_eq]
  exact readN_length v.bytes

theorem written_of_ne {m : Mem} {r s : Record} (v : Value r) (h : s ≠ r) :
    written m r.addr v.bytes s = s.load m := by
  apply if_neg
  rw [Record.addr_inj]
  exact h.symm

/-- The sector after an erase and the three writes. -/
def rewritten (m : Mem) (w : Record → List Byte) : Mem :=
  programs (programs (programs (FLASH_EraseSector m 1) dataAddr (w .setup)) dataFreqAddr (w .freq))
    serverNetInfoAddr (w .server)

theorem setSecret_1_rewritten {m : Mem} {writeAddr : ℕ} {pBuffer : List Byte}
    (h : STMFLASH_GetFlashSector writeAddr = 1) :
    setSecret_1 m writeAddr pBuffer = some (rewritten m (written m writeAddr pBuffer)) := by
  have hlen := length_written m writeAddr pBuffer
  unfold setSecret_1
  rw [if_pos h]
  show (writeByteToFlash _ Record.setup.addr (written m writeAddr pBuffer .setup)).bind (fun p =>
    (writeByteToFlash p.2 Record.freq.addr (written m writeAddr pBuffer .freq)).bind fun p =>
    (writeByteToFlash p.2 Record.server.addr (written m writeAddr pBuffer .server)).bind fun p =>
    some p.2) = _
  rw [write_record .setup (hlen .setup), Option.bind_some, write_record .freq (hlen .freq),
    Option.bind_some, write_record .server (hlen .server), Option.bind_some]
  rfl

/-- After an erase and the three writes each record reads as written. -/
theorem load_rewritten {m : Mem} {w : Record → List Byte} (hw : ∀ s, (w s).length = s.size)
    (s : Record) : s.load (rewritten m w) = w s := by
  have h1 : (w .setup).length = 306 := hw .setup
  have h2 : (w .freq).length = 64 := hw .freq
  have h3 : (w .server).length = 228 := hw .server
  have herased : Erased (FLASH_EraseSector m 1) 0x08004000 0x4000 := erased_erase _ _ _
  unfold Record.load STMFLASH_ReadMoreByte rewritten
  cases s with
  | setup =>
    show read _ 0x08004000 306 = _
    rw [read_programs_of_disjoint, read_programs_of_disjoint, ← h1]
    · apply read_programs_of_erased
      apply herased.mono
      · exact le_rfl
      · rw [h1]; decide
    · right; decide
    · right; decide
  | freq =>
    show read _ dataFreqAddr 64 = _
    rw [read_programs_of_disjoint, ← h2]
    · apply read_programs_of_erased
      apply Erased.programs
      · apply herased.mono
        · decide
        · rw [h2]; decide
      · left
        rw [h1]; decide
    · right; decide
  | server =>
    show read _ serverNetInfoAddr 228 = _
    rw [← h3]
    apply read_programs_of_erased
    apply Erased.programs
    · apply Erased.programs
      · apply herased.mono
        · decide
        · rw [h3]; decide
      · left
        rw [h1]; decide
    · left
      rw [h2]; decide

/-- A save changes nothing behind sector 1. -/
theorem setSecret_1_outside {m m' : Mem} {writeAddr : ℕ} {pBuffer : List Byte}
    (h : setSecret_1 m writeAddr pBuffer = some m') {k : ℕ} (hk : 0x08008000 ≤ k) :
    m' k = m k := by
  by_cases hsector : STMFLASH_GetFlashSector writeAddr = 1
  · rw [setSecret_1_rewritten hsector] at h
    obtain rfl := Option.some.inj h
    have hlen := length_written m writeAddr pBuffer
    have h1 : (written m writeAddr pBuffer .setup).length = 306 := hlen .setup
    have h2 : (written m writeAddr pBuffer .freq).length = 64 := hlen .freq
    have h3 : (written m writeAddr pBuffer .server).length = 228 := hlen .server
    have hsetup : dataAddr = 0x08004000 := rfl
    have hfreq : dataFreqAddr = 0x08004132 := rfl
    have hserver : serverNetInfoAddr = 0x08004400 := rfl
    unfold rewritten
    rw [programs_of_disjoint (by omega), programs_of_disjoint (by omega),
      programs_of_disjoint (by omega)]
    show erase m 0x08004000 0x4000 k = m k
    exact erase_of_disjoint (by omega)
  · rw [setSecret_1, if_neg hsector] at h
    cases h
    rfl

/-- One save changes the saved record and no other one. -/
theorem setSecret_1_eq (m : Mem) (r : Record) (v : Value r) :
    ∃ m', setSecret_1 m r.addr v.bytes = some m' ∧ r.load m' = v.bytes ∧
      ∀ s, s ≠ r → s.load m' = s.load m := by
  refine ⟨_, setSecret_1_rewritten r.in_sector.1, ?_, ?_⟩
  · rw [load_rewritten (length_written _ _ _), written_self]
  · intro s hs
    rw [load_rewritten (length_written _ _ _), written_of_ne v hs]

/-! ## Sequences of saves -/

/-- Saves of records, one after the other. -/
def saveAll (m : Mem) : List (Σ r : Record, Value r) → Option Mem
  | [] => some m
  | ⟨r, v⟩ :: saves => (setSecret_1 m r.addr v.bytes).bind fun m => saveAll m saves

/-- The value of the last save of `r`, or `old`. -/
def lastSaved (r : Record) (old : List Byte) : List (Σ r : Record, Value r) → List Byte
  | [] => old
  | ⟨s, v⟩ :: saves => lastSaved r (if s = r then v.bytes else old) saves

/-- After any saves each record reads as last saved, or as at first if it was
    never saved. -/
theorem setSecret_1_saves (m : Mem) (saves : List (Σ r : Record, Value r)) :
    ∃ m', saveAll m saves = some m' ∧
      ∀ r : Record, STMFLASH_ReadMoreByte m' r.addr r.size =
        lastSaved r (STMFLASH_ReadMoreByte m r.addr r.size) saves := by
  induction saves generalizing m with
  | nil => exact ⟨m, rfl, fun r => rfl⟩
  | cons save saves ih =>
    obtain ⟨s, v⟩ := save
    obtain ⟨m1, hm1, hself, hother⟩ := setSecret_1_eq m s v
    obtain ⟨m', hm', hload⟩ := ih m1
    refine ⟨m', by rw [saveAll, hm1, Option.bind_some, hm'], fun r => ?_⟩
    rw [hload r, lastSaved]
    congr 1
    by_cases hr : s = r
    · subst hr
      rw [if_pos rfl]
      exact hself
    · rw [if_neg hr]
      exact hother r (Ne.symm hr)

end Abox.Flash
