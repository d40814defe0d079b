import Abox.Lib.Stall
import Abox.Update.Bounds

/-!
# Flash access, one operation after the other

The functions of `Abox/src/flash_control.c` again, as programs whose single
operations are the erase of a sector and the programming of a byte. What they do
when the power lasts is what `Abox.Flash` and `Abox.Update` say; here the memory
that a power failure leaves counts, also while a failed `assert_param` waits.
-/

namespace Abox.Device

open Nor PowerCut Flash

/-! ## The functions -/

/-- `FLASH_EraseSector`. -/
def FLASH_EraseSector (sector : ℕ) : Prog Mem Unit :=
  Prog.op fun m => Flash.FLASH_EraseSector m sector

/-- `FLASH_ProgramByte`. -/
def FLASH_ProgramByte (address : ℕ) (data : Byte) : Prog Mem Unit := do
  Prog.check (isFlashAddress address)
  Prog.op fun m => program m address data

/-- The loop of `writeByteToFlash`. -/
def programBytes (writeAddr : ℕ) : List Byte → Prog Mem Unit
  | [] => pure ()
  | b :: data => do
    FLASH_ProgramByte writeAddr b
    programBytes (writeAddr + 1) data

/-- `writeByteToFlash` (`flash_control.c` lines 162–195). -/
def writeByteToFlash (writeAddr : ℕ) (data : List Byte) : Prog Mem RtErr :=
  if writeAddr = 0 ∨ data = [] then pure .rtError
  else do
    programBytes writeAddr data
    pure .rtEok

/-- `clearSaveDataSector` (`flash_control.c` lines 216–239). -/
def clearSaveDataSector : Prog Mem Unit := do
  FLASH_EraseSector (STMFLASH_GetFlashSector updataAppAddr)
  FLASH_EraseSector (STMFLASH_GetFlashSector (updataAppAddr + 0x20000))
  FLASH_EraseSector (STMFLASH_GetFlashSector (updataAppAddr + 0x40000))

/-- `setSecret_1` (`flash_control.c` lines 43–99). -/
def setSecret_1 (writeAddr : ℕ) (pBuffer : List Byte) : Prog Mem Unit :=
  if STMFLASH_GetFlashSector writeAddr = 1 then do
    let setup_temp ← Prog.get fun m => STMFLASH_ReadMoreByte m dataAddr sizeofStSysSetup
    let freqInfo ← Prog.get fun m => STMFLASH_ReadMoreByte m dataFreqAddr sizeofFreqInformation
    let serNetInfo ← Prog.get fun m =>
      STMFLASH_ReadMoreByte m serverNetInfoAddr sizeofServerNetInformation
    let setup_temp :=
      if writeAddr = dataAddr then readN pBuffer sizeofStSysSetup else setup_temp
    let freqInfo :=
      if writeAddr = dataFreqAddr then readN pBuffer sizeofFreqInformation else freqInfo
    let serNetInfo :=
      if writeAddr = serverNetInfoAddr then readN pBuffer sizeofServerNetInformation
      else serNetInfo
    FLASH_EraseSector 1
    let _ ← writeByteToFlash dataAddr setup_temp
    let _ ← writeByteToFlash dataFreqAddr freqInfo
    let _ ← writeByteToFlash serverNetInfoAddr serNetInfo
    pure ()
  else pure ()

/-- `SaveSetup` (`ctrl.c` lines 102–110). -/
def SaveSetup (setup : List Byte) : Prog Mem Unit :=
  if Update.setupAppId setup ≠ 0 ∧ Update.setupAppId setup ≠ 0xffffffff then
    setSecret_1 dataAddr setup
  else pure ()

/-! ## Writing -/

/-- A power failure in a write leaves a part of it, programmed in the flash. -/
def WrittenPart (writeAddr : ℕ) (data : List Byte) (m m' : Mem) : Prop :=
  ∃ n ≤ data.length, (∀ k < n, isFlashAddress (writeAddr + k) = true) ∧
    m' = programs m writeAddr (data.take n)

theorem WrittenPart.refl (writeAddr : ℕ) (data : List Byte) (m : Mem) :
    WrittenPart writeAddr data m m :=
  ⟨0, Nat.zero_le _, fun _ hk => absurd hk (Nat.not_lt_zero _), rfl⟩

/-- Only addresses of the write, and of the flash, are programmed. -/
theorem WrittenPart.apply {writeAddr k : ℕ} {data : List Byte} {m m' : Mem}
    (h : WrittenPart writeAddr data m m')
    (hk : k < writeAddr ∨ writeAddr + data.length ≤ k ∨ isFlashAddress k = false) :
    m' k = m k := by
  obtain ⟨n, hn, hflash, rfl⟩ := h
  apply programs_of_disjoint
  have hlen : (data.take n).length = n := by rw [List.length_take]; omega
  rw [hlen]
  rcases hk with hk | hk | hk
  · exact Or.inl hk
  · exact Or.inr (by omega)
  · by_contra hin
    have := hflash (k - writeAddr) (by omega)
    rw [show writeAddr + (k - writeAddr) = k by omega, hk] at this
    cases this

theorem FLASH_ProgramByte_refines (address : ℕ) (data : Byte) :
    Refines (FLASH_ProgramByte address data)
      (fun m => (Flash.FLASH_ProgramByte m address data).map fun m => ((), m))
      fun m m' => m' = m := by
  refine ((Refines.check _).bind fun _ => Refines.op _).mono (fun m => ?_) ?_
  · unfold Flash.FLASH_ProgramByte
    split_ifs <;> rfl
  · rintro m m' (rfl | ⟨_, m1, h, rfl⟩)
    · rfl
    · split_ifs at h
      cases h
      rfl

theorem programBytes_refines (writeAddr : ℕ) (data : List Byte) :
    Refines (programBytes writeAddr data)
      (fun m => (Flash.programBytes m writeAddr data).map fun m => ((), m))
      (WrittenPart writeAddr data) := by
  induction data generalizing writeAddr with
  | nil => exact (Refines.pure (C := fun _ _ => False) ()).mono (fun _ => rfl) fun _ _ h => h.elim
  | cons b data ih =>
    refine ((FLASH_ProgramByte_refines writeAddr b).bind fun _ => ih (writeAddr + 1)).mono
      (fun m => ?_) ?_
    · rw [Flash.programBytes]
      cases Flash.FLASH_ProgramByte m writeAddr b <;> rfl
    · rintro m m' (rfl | ⟨_, m1, h, n, hn, hflash, rfl⟩)
      · exact WrittenPart.refl ..
      · rw [Flash.FLASH_ProgramByte] at h
        split_ifs at h with hb
        · cases h
          refine ⟨n + 1, by simpa using hn, fun k hk => ?_, rfl⟩
          cases k with
          | zero => exact hb
          | succ k =>
            rw [show writeAddr + (k + 1) = writeAddr + 1 + k by omega]
            exact hflash k (by omega)
        · cases h

theorem writeByteToFlash_refines (writeAddr : ℕ) (data : List Byte) :
    Refines (writeByteToFlash writeAddr data)
      (fun m => Flash.writeByteToFlash m writeAddr data) (WrittenPart writeAddr data) := by
  unfold writeByteToFlash
  split_ifs with h
  · refine (Refines.pure RtErr.rtError).mono (fun m => ?_) fun _ _ hp => hp
    rw [Flash.writeByteToFlash, if_pos h]
  · refine ((programBytes_refines writeAddr data).bind fun _ =>
      Refines.pure (C := fun _ _ => False) RtErr.rtEok).mono (fun m => ?_) ?_
    · rw [Flash.writeByteToFlash, if_neg h]
      cases Flash.programBytes m writeAddr data <;> rfl
    · rintro m m' (hp | ⟨_, _, _, hf⟩)
      · exact hp
      · exact hf.elim

/-! ## Erasing -/

/-- Bytes of the staging area may have been erased. -/
def SomeErased (m m' : Mem) : Prop := ∀ k, m' k = m k ∨ (updataAppAddr ≤ k ∧ m' k = 0xFF)

theorem SomeErased.trans {m m' m'' : Mem} (h : SomeErased m m') (h' : SomeErased m' m'') :
    SomeErased m m'' := by
  intro k
  rcases h' k with hk | hk
  · rw [hk]
    exact h k
  · exact Or.inr hk

theorem someErased_erase (m : Mem) {a : ℕ} (n : ℕ) (ha : updataAppAddr ≤ a) :
    SomeErased m (erase m a n) := by
  intro k
  by_cases hk : a ≤ k ∧ k < a + n
  · exact Or.inr ⟨by omega, erase_of_mem hk⟩
  · exact Or.inl (erase_of_disjoint (by omega))

theorem erase_9 (m : Mem) : Flash.FLASH_EraseSector m (STMFLASH_GetFlashSector updataAppAddr) =
    erase m updataAppAddr 0x20000 := rfl

theorem erase_10 (m : Mem) :
    Flash.FLASH_EraseSector m (STMFLASH_GetFlashSector (updataAppAddr + 0x20000)) =
      erase m (updataAppAddr + 0x20000) 0x20000 := rfl

/-- The first two of the three sectors are erased. -/
theorem someErased_two (m : Mem) :
    SomeErased m (erase (erase m updataAppAddr 0x20000) (updataAppAddr + 0x20000) 0x20000) :=
  (someErased_erase m 0x20000 le_rfl).trans (someErased_erase _ 0x20000 (Nat.le_add_right ..))

theorem someErased_clearSaveDataSector (m : Mem) :
    SomeErased m (Update.clearSaveDataSector m) :=
  (someErased_two m).trans
    (someErased_erase _ 0x20000 (Nat.le_add_right updataAppAddr 0x40000))

/-- A power failure in `clearSaveDataSector` leaves the staging area as it is, or
    without its first sector and perhaps the second one. -/
def ClearedPart (m m' : Mem) : Prop := m' = m ∨ (Erased m' updataAppAddr 4 ∧ SomeErased m m')

theorem clearSaveDataSector_refines : Refines clearSaveDataSector
    (fun m => some ((), Update.clearSaveDataSector m)) ClearedPart := by
  refine ((Refines.op _).bind fun _ => (Refines.op _).bind fun _ => Refines.op _).mono
    (fun _ => rfl) ?_
  rintro m m' (rfl | ⟨_, m1, h1, rfl | ⟨_, m2, h2, rfl⟩⟩)
  · exact Or.inl rfl
  all_goals cases h1
  all_goals have hfour : Nor.Erased (erase m updataAppAddr 0x20000) updataAppAddr 4 :=
    (erased_erase m updataAppAddr 0x20000).mono le_rfl (by omega)
  · exact Or.inr ⟨hfour, someErased_erase m 0x20000 le_rfl⟩
  · cases h2
    rw [erase_10, erase_9]
    exact Or.inr ⟨Nor.Erased.erase hfour _ _, someErased_two m⟩

/-! ## Sector 1 -/

/-- Only sector 1 has changed. -/
def Sector1Only (m m' : Mem) : Prop := ∀ k, k < 0x08004000 ∨ 0x08008000 ≤ k → m' k = m k

theorem Sector1Only.trans {m m' m'' : Mem} (h : Sector1Only m m') (h' : Sector1Only m' m'') :
    Sector1Only m m'' := fun k hk => (h' k hk).trans (h k hk)

theorem sector1Only_erase (m : Mem) : Sector1Only m (Flash.FLASH_EraseSector m 1) := by
  intro k hk
  exact erase_of_disjoint (a := 0x08004000) (n := 0x4000) (by omega)

theorem sector1Only_part {m m' : Mem} (r : Record) {data : List Byte} (hlen : data.length = r.size)
    (h : WrittenPart r.addr data m m') : Sector1Only m m' := by
  obtain ⟨-, h1, h2⟩ := r.in_sector
  intro k hk
  exact h.apply (by omega)

theorem sector1Only_programs {m : Mem} (r : Record) {data : List Byte}
    (hlen : data.length = r.size) : Sector1Only m (programs m r.addr data) := by
  obtain ⟨-, h1, h2⟩ := r.in_sector
  intro k hk
  exact programs_of_disjoint (by omega)

/-- The three writes of `setSecret_1`. -/
def writeRecords (w : Record → List Byte) : Prog Mem Unit := do
  FLASH_EraseSector 1
  let _ ← writeByteToFlash dataAddr (w .setup)
  let _ ← writeByteToFlash dataFreqAddr (w .freq)
  let _ ← writeByteToFlash serverNetInfoAddr (w .server)
  pure ()

/-- A write of a record. -/
theorem writeRecord_refines (r : Record) {data : List Byte} (hlen : data.length = r.size) :
    Refines (writeByteToFlash r.addr data)
      (fun m => some (RtErr.rtEok, programs m r.addr data)) Sector1Only :=
  (writeByteToFlash_refines r.addr data).mono (fun _ => write_record r hlen)
    fun _ _ hp => sector1Only_part r hlen hp

theorem writeRecords_refines {w : Record → List Byte} (hw : ∀ r, (w r).length = r.size) :
    Refines (writeRecords w) (fun m => some ((), rewritten m w)) Sector1Only := by
  refine ((Refines.op _).bind fun _ => (writeRecord_refines .setup (hw .setup)).bind fun _ =>
    (writeRecord_refines .freq (hw .freq)).bind fun _ =>
    (writeRecord_refines .server (hw .server)).bind fun _ =>
    Refines.pure (C := fun _ _ => False) ()).mono (fun _ => rfl) ?_
  rintro m m' (rfl | ⟨_, m1, h1, hp | ⟨_, m2, h2, hp | ⟨_, m3, h3, hp | ⟨_, _, _, hf⟩⟩⟩⟩)
  · exact fun _ _ => rfl
  all_goals cases h1
  · exact (sector1Only_erase m).trans hp
  all_goals cases h2
  all_goals have hm2 := (sector1Only_erase m).trans (sector1Only_programs .setup (hw .setup))
  · exact hm2.trans hp
  all_goals cases h3
  · exact (hm2.trans (sector1Only_programs .freq (hw .freq))).trans hp
  · exact hf.elim

theorem setSecret_1_refines (writeAddr : ℕ) (pBuffer : List Byte) :
    Refines (setSecret_1 writeAddr pBuffer)
      (fun m => (Flash.setSecret_1 m writeAddr pBuffer).map fun m => ((), m)) Sector1Only := by
  unfold setSecret_1
  by_cases h : STMFLASH_GetFlashSector writeAddr = 1
  · rw [if_pos h]
    intro m power
    beta_reduce
    rw [setSecret_1_rewritten h]
    exact writeRecords_refines (length_written m writeAddr pBuffer) m power
  · rw [if_neg h]
    refine (Refines.pure ()).mono (fun m => ?_) fun _ _ hs => hs
    rw [Flash.setSecret_1, if_neg h]
    rfl

theorem sector1Only_setSecret_1 {m m' : Mem} {writeAddr : ℕ} {pBuffer : List Byte}
    (h : Flash.setSecret_1 m writeAddr pBuffer = some m') : Sector1Only m m' := by
  by_cases hsector : STMFLASH_GetFlashSector writeAddr = 1
  · have hlen := length_written m writeAddr pBuffer
    rw [setSecret_1_rewritten hsector] at h
    cases h
    have h1 := (sector1Only_erase m).trans (sector1Only_programs .setup (hlen .setup))
    have h2 := h1.trans (sector1Only_programs .freq (hlen .freq))
    exact h2.trans (sector1Only_programs .server (hlen .server))
  · rw [Flash.setSecret_1, if_neg hsector] at h
    cases h
    exact fun _ _ => rfl

theorem sector1Only_SaveSetup {m m' : Mem} {setup : List Byte}
    (h : Update.SaveSetup m setup = some m') : Sector1Only m m' := by
  unfold Update.SaveSetup at h
  split_ifs at h
  · exact sector1Only_setSecret_1 h
  · cases h
    exact fun _ _ => rfl

theorem SaveSetup_refines (setup : List Byte) :
    Refines (SaveSetup setup) (fun m => (Update.SaveSetup m setup).map fun m => ((), m))
      Sector1Only := by
  unfold SaveSetup
  split_ifs with h
  · refine (setSecret_1_refines dataAddr setup).mono (fun m => ?_) fun _ _ hs => hs
    rw [Update.SaveSetup, if_pos h]
  · refine (Refines.pure ()).mono (fun m => ?_) fun _ _ hs => hs
    rw [Update.SaveSetup, if_neg h]
    rfl

end Abox.Device
