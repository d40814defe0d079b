import Abox.Boot.Status

/-!
# A copy that fails

The functions that erase and program the flash stop at an operation that does not
complete, and report nothing to `main`, which goes on to erase the staged image.
It is kept all the same: the flag of the operation that failed is still set, so
none of the operations after it is started.

* `Kept`: the staged image is there, and a flag is set if the copy has failed.
* `failed_copy_keeps`: after a copy that failed, the staged image is there and is
  accepted when `main` ends.
-/

namespace Abox.Boot.Status

open Nor PowerCut Flash

/-! ## Failures of the copy -/

/-- The operations that erase and program the application. -/
def Operation.OfCopy : Operation → Prop
  | .eraseSector sector => 2 ≤ sector ∧ sector ≤ 6
  | .programWord _ => True
  | .programByte _ => True

instance (op : Operation) : Decidable op.OfCopy :=
  match op with
  | .eraseSector _ => inferInstanceAs (Decidable (_ ∧ _))
  | .programWord _ => inferInstanceAs (Decidable True)
  | .programByte _ => inferInstanceAs (Decidable True)

/-- An operation of the copy has reported another status than `FLASH_COMPLETE`. -/
def CopyFailed (c : Chip) : Prop := ∃ e ∈ c.log, e.1.OfCopy ∧ e.2 ≠ .complete

/-- A flag is set if the copy has failed. -/
def Flagged (c : Chip) : Prop := CopyFailed c → FLASH_WaitForLastOperation c.sr ≠ .complete

/-- The staged image is there, and a flag is set if the copy has failed. -/
structure Kept (m0 : Mem) (c : Chip) : Prop where
  staged : Staged m0 c.mem
  flagged : Flagged c

variable {m0 : Mem}

/-! ## One operation -/

theorem Flagged.start {c : Chip} (h : Flagged c) (op : Operation) (f : Mem → Mem) :
    Flagged (c.start op f) := by
  unfold Chip.start
  cases hf : c.fault 0 with
  | none => exact h
  | some fault => exact fun _ => not_complete_or c.sr fault

/-- The status that is reported is the one that is left. -/
theorem Flagged.report {c : Chip} (h : Flagged c) (op : Operation) :
    Flagged (c.report op (FLASH_WaitForLastOperation c.sr)) := by
  rintro ⟨e, he, hcopy, hstatus⟩
  rcases List.mem_append.1 he with he | he
  · exact h ⟨e, he, hcopy, hstatus⟩
  · obtain rfl := List.mem_singleton.1 he
    exact hstatus

/-- An operation below the staging sectors leaves the staged image alone, also when
    it fails. -/
theorem staged_start {c : Chip} (h : Staged m0 c.mem) {op : Operation} {f : Mem → Mem}
    (hf : Staged m0 (f c.mem)) (hop : ∀ k, op.Targets k → k < updataAppAddr) :
    Staged m0 (c.start op f).mem := by
  unfold Chip.start
  cases hfault : c.fault 0 with
  | none => exact hf
  | some fault =>
    intro k h1 h2
    show (if op.Targets k then fault.mem k else c.mem k) = m0 k
    rw [if_neg fun ht => absurd (hop k ht) (Nat.not_lt.2 h1)]
    exact h k h1 h2

/-- The status is recorded and returned. -/
theorem report_kept (op : Operation) (status : FlashStatus) :
    Triple (fun c => Kept m0 c ∧ status = FLASH_WaitForLastOperation c.sr)
      (do Prog.record (Chip.report op status); return status) (fun _ => Kept m0)
      fun _ => True := by
  apply Triple.bind (Q := fun _ => Kept m0)
  · apply Triple.record
    rintro c ⟨hc, rfl⟩
    exact ⟨hc.staged, hc.flagged.report op⟩
  · exact fun _ => Triple.pure fun c hc => hc

theorem FLASH_operation_kept {op : Operation} {f : Mem → Mem}
    (hf : ∀ m, Staged m0 m → Staged m0 (f m)) (hop : ∀ k, op.Targets k → k < updataAppAddr) :
    Triple (Kept m0) (FLASH_operation op f) (fun _ => Kept m0) fun _ => True := by
  apply Triple.bind (Q := fun status c => Kept m0 c ∧ status = FLASH_WaitForLastOperation c.sr)
  · exact Triple.get fun c hc => ⟨hc, rfl⟩
  intro status
  by_cases hstatus : status = .complete
  · rw [if_pos hstatus]
    apply Triple.bind (Q := fun _ => Kept m0)
    · apply Triple.op
      · rintro c ⟨hc, -⟩
        exact ⟨staged_start hc.staged (hf c.mem hc.staged) hop, hc.flagged.start op f⟩
      · exact fun _ _ => trivial
    intro _
    apply Triple.bind (Q := fun status c => Kept m0 c ∧
      status = FLASH_WaitForLastOperation c.sr)
    · exact Triple.get fun c hc => ⟨hc, rfl⟩
    · exact report_kept op
  · rw [if_neg hstatus]
    exact report_kept op status

/-- The writers go on as long as their operations complete. -/
theorem Triple.ifComplete {P : Chip → Prop} {p : Prog Chip FlashStatus} {rest : Prog Chip Unit}
    (hp : Triple P p (fun _ => P) fun _ => True)
    (hrest : Triple P rest (fun _ => P) fun _ => True) :
    Triple P (do let status ← p; if status = .complete then rest else pure ()) (fun _ => P)
      fun _ => True := by
  apply hp.bind
  intro status
  by_cases hstatus : status = .complete
  · rw [if_pos hstatus]
    exact hrest
  · rw [if_neg hstatus]
    exact Triple.pure fun c hc => hc

/-! ## The copy -/

/-- An erase of a sector of the application. -/
theorem FLASH_EraseSector_kept {sector : ℕ} (h : sector ≤ 6) :
    Triple (Kept m0) (FLASH_EraseSector sector) (fun _ => Kept m0) fun _ => True := by
  have hend : addrFlashSector.getD (sector + 1) flashEnd ≤ updataAppAddr ∧
      addrFlashSector.getD sector flashEnd ≤ addrFlashSector.getD (sector + 1) flashEnd := by
    interval_cases sector <;> decide
  apply FLASH_operation_kept
  · intro m hm
    unfold Flash.FLASH_EraseSector
    apply hm.erase
    omega
  · intro k hk
    have := hk.2
    omega

/-- What the erase of each sector keeps, also if it is the last one. -/
theorem eraseSectors_triple {P : Chip → Prop} {addrs : List ℕ}
    (h : ∀ a ∈ addrs, Triple P (FLASH_EraseSector (STMFLASH_GetFlashSector a)) (fun _ => P)
      fun _ => True) :
    Triple P (eraseSectors addrs) (fun _ => P) fun _ => True := by
  induction addrs with
  | nil => exact Triple.pure fun c hc => hc
  | cons a addrs ih =>
    apply Triple.ifComplete
    · exact h a List.mem_cons_self
    · exact ih fun b hb => h b (List.mem_cons_of_mem a hb)

theorem clearAppDataSector_kept :
    Triple (Kept m0) clearAppDataSector (fun _ => Kept m0) fun _ => True := by
  apply eraseSectors_triple
  intro a ha
  apply FLASH_EraseSector_kept
  revert a
  decide

theorem FLASH_ProgramWord_kept {a : ℕ} (h1 : 0x08000000 ≤ a) (h2 : a + 4 ≤ updataAppAddr)
    (w : BitVec 32) :
    Triple (Kept m0) (FLASH_ProgramWord a w) (fun _ => Kept m0) fun _ => True := by
  have hlen : (Layout.word.encode w).length = 4 := Layout.word.length_encode w
  apply Triple.bind (Q := fun _ => Kept m0)
  · apply Triple.assert
    · exact isFlashAddress_of_lt h1 (by unfold updataAppAddr at h2; omega)
    · exact fun c hc => hc
  · intro _
    apply FLASH_operation_kept
    · exact fun m hm => hm.programs (by omega)
    · intro k hk
      have := hk.2
      omega

theorem FLASH_ProgramByte_kept {a : ℕ} (h1 : 0x08000000 ≤ a) (h2 : a < updataAppAddr) (b : Byte) :
    Triple (Kept m0) (FLASH_ProgramByte a b) (fun _ => Kept m0) fun _ => True := by
  apply Triple.bind (Q := fun _ => Kept m0)
  · apply Triple.assert
    · exact isFlashAddress_of_lt h1 (by unfold updataAppAddr at h2; omega)
    · exact fun c hc => hc
  · intro _
    apply FLASH_operation_kept
    · intro m hm
      have hbyte : Staged m0 (programs m a [b]) := by
        apply hm.programs
        simp only [List.length_singleton]
        omega
      exact hbyte
    · rintro k rfl
      exact h2

theorem STMFLASH_Write_kept {a : ℕ} (ws : List (BitVec 32)) (h1 : 0x08000000 ≤ a)
    (h2 : a + 4 * ws.length ≤ updataAppAddr) :
    Triple (Kept m0) (STMFLASH_Write a ws) (fun _ => Kept m0) fun _ => True := by
  induction ws generalizing a with
  | nil => exact Triple.pure fun c hc => hc
  | cons w ws ih =>
    rw [List.length_cons] at h2
    apply Triple.ifComplete
    · exact FLASH_ProgramWord_kept h1 (by omega) w
    · exact ih (by omega) (by omega)

theorem programBytes_kept {a : ℕ} (bs : List Byte) (h1 : 0x08000000 ≤ a)
    (h2 : a + bs.length ≤ updataAppAddr) :
    Triple (Kept m0) (programBytes a bs) (fun _ => Kept m0) fun _ => True := by
  induction bs generalizing a with
  | nil => exact Triple.pure fun c hc => hc
  | cons b bs ih =>
    rw [List.length_cons] at h2
    apply Triple.ifComplete
    · exact FLASH_ProgramByte_kept h1 (by omega) b
    · exact ih (by omega) (by omega)

theorem writeByteToFlash_kept {a : ℕ} (bs : List Byte) (h1 : 0x08000000 ≤ a)
    (h2 : a + bs.length ≤ updataAppAddr) :
    Triple (Kept m0) (writeByteToFlash a bs) (fun _ => Kept m0) fun _ => True := by
  unfold writeByteToFlash
  by_cases hnil : a = 0 ∨ bs = []
  · rw [if_pos hnil]
    exact Triple.pure fun c hc => hc
  · rw [if_neg hnil]
    exact programBytes_kept bs h1 h2

/-! ## The clean-up -/

/-- The staged image is there and a flag is set, if the copy has failed. -/
def KeptIfFailed (m0 : Mem) (c : Chip) : Prop := CopyFailed c → Kept m0 c

/-- What an erase outside the application reports is no failure of the copy. -/
theorem CopyFailed.of_report {c : Chip} {sector : ℕ} {status : FlashStatus} (h : 6 < sector)
    (hfailed : CopyFailed (c.report (.eraseSector sector) status)) : CopyFailed c := by
  obtain ⟨e, he, hcopy, hstatus⟩ := hfailed
  rcases List.mem_append.1 he with he | he
  · exact ⟨e, he, hcopy, hstatus⟩
  · obtain rfl := List.mem_singleton.1 he
    exact absurd hcopy.2 (Nat.not_le.2 h)

/-- To start an operation reports nothing. -/
theorem CopyFailed.of_start {c : Chip} {op : Operation} {f : Mem → Mem}
    (hfailed : CopyFailed (c.start op f)) : CopyFailed c := by
  unfold Chip.start at hfailed
  cases hf : c.fault 0 with
  | none =>
    rw [hf] at hfailed
    exact hfailed
  | some fault =>
    rw [hf] at hfailed
    exact hfailed

/-- A sector that is not of the application is not erased behind a failure. -/
theorem FLASH_EraseSector_keptIfFailed {sector : ℕ} (h : 6 < sector) :
    Triple (KeptIfFailed m0) (FLASH_EraseSector sector) (fun _ => KeptIfFailed m0)
      fun _ => True := by
  apply Triple.bind (Q := fun status c => KeptIfFailed m0 c ∧
    status = FLASH_WaitForLastOperation c.sr)
  · exact Triple.get fun c hc => ⟨hc, rfl⟩
  intro status
  by_cases hstatus : status = .complete
  · rw [if_pos hstatus]
    -- the operation is started only if the copy has not failed
    apply Triple.bind (Q := fun _ c => ¬ CopyFailed c)
    · apply Triple.op
      · rintro c ⟨hc, rfl⟩ hfailed
        exact (hc hfailed.of_start).flagged hfailed.of_start hstatus
      · exact fun _ _ => trivial
    intro _
    apply Triple.bind (Q := fun _ c => ¬ CopyFailed c)
    · exact Triple.get fun c hc => hc
    intro status
    apply Triple.bind (Q := fun _ => KeptIfFailed m0)
    · exact Triple.record fun c hc hfailed => absurd (hfailed.of_report h) hc
    · exact fun _ => Triple.pure fun c hc => hc
  · rw [if_neg hstatus]
    apply Triple.bind (Q := fun _ => KeptIfFailed m0)
    · apply Triple.record
      rintro c ⟨hc, rfl⟩ hfailed
      have hkept := hc (hfailed.of_report h)
      exact ⟨hkept.staged, hkept.flagged.report _⟩
    · exact fun _ => Triple.pure fun c hc => hc

theorem clearSaveDataSector_keptIfFailed :
    Triple (KeptIfFailed m0) clearSaveDataSector (fun _ => KeptIfFailed m0) fun _ => True := by
  apply eraseSectors_triple
  intro a ha
  apply FLASH_EraseSector_keptIfFailed
  revert a
  decide

/-! ## `main` -/

/-- A read of what is in front of the end of the flash. -/
theorem readFlash_triple {P : Chip → Prop} {readAddr n : ℕ} (h : readAddr + n ≤ flashEnd)
    (f : Mem → α) :
    Triple P (readFlash readAddr n f) (fun a c => P c ∧ a = f c.mem) fun _ => True := by
  apply Triple.bind (Q := fun _ => P)
  · exact Triple.assert (decide_eq_true h) fun c hc => hc
  · exact fun _ => Triple.get fun c hc => ⟨hc, rfl⟩

theorem STMFLASH_Read_triple {P : Chip → Prop} {readAddr n : ℕ}
    (h : readAddr + 4 * n ≤ flashEnd) :
    Triple P (STMFLASH_Read readAddr n) (fun buf c => P c ∧ buf.length = n) fun _ => True := by
  unfold STMFLASH_Read
  apply (readFlash_triple h _).conseq
  · exact fun c hc => hc
  · rintro buf c ⟨hc, rfl⟩
    exact ⟨hc, by rw [List.length_map, List.length_range]⟩
  · exact fun _ h => h

theorem STMFLASH_ReadMoreByte_triple {P : Chip → Prop} {readAddr n : ℕ}
    (h : readAddr + n ≤ flashEnd) :
    Triple P (STMFLASH_ReadMoreByte readAddr n) (fun buf c => P c ∧ buf.length = n)
      fun _ => True := by
  unfold STMFLASH_ReadMoreByte
  apply (readFlash_triple h _).conseq
  · exact fun c hc => hc
  · rintro buf c ⟨hc, rfl⟩
    exact ⟨hc, length_read ..⟩
  · exact fun _ h => h

theorem copyApp_kept {readAddr writeAddr fileLen : ℕ} (h1 : 0x08000000 ≤ writeAddr)
    (h2 : writeAddr + fileLen ≤ updataAppAddr) (h3 : readAddr + fileLen ≤ flashEnd) :
    Triple (Kept m0) (copyApp readAddr writeAddr fileLen) (fun _ => KeptIfFailed m0)
      fun _ => True := by
  induction fileLen using Nat.strong_induction_on generalizing readAddr writeAddr with
  | _ fileLen ih =>
    rw [copyApp]
    by_cases hbig : bufSize < fileLen
    · rw [if_pos hbig]
      have hpos := bufSize_pos
      generalize hwords : bufSize / 4 = words
      apply Triple.bind (Q := fun (buf : List (BitVec 32)) c => Kept m0 c ∧ buf.length = words)
      · exact STMFLASH_Read_triple (by omega)
      intro buf
      apply Triple.of_forall
      rintro c ⟨hc, hlen⟩
      apply Triple.bind (Q := fun _ => Kept m0)
      · apply (STMFLASH_Write_kept buf h1 (by rw [hlen]; omega)).conseq
        · rintro _ rfl
          exact hc
        · exact fun _ c hc => hc
        · exact fun _ h => h
      · exact fun _ => ih _ (by omega) (by omega) (by omega) (by omega)
    · rw [if_neg hbig]
      apply Triple.bind (Q := fun (buf : List Byte) c => Kept m0 c ∧ buf.length = fileLen)
      · exact STMFLASH_ReadMoreByte_triple h3
      intro buf
      apply Triple.of_forall
      rintro c ⟨hc, hlen⟩
      apply Triple.bind (Q := fun _ => Kept m0)
      · apply (writeByteToFlash_kept buf h1 (by rw [hlen]; exact h2)).conseq
        · rintro _ rfl
          exact hc
        · exact fun _ c hc => hc
        · exact fun _ h => h
      · intro _
        exact clearSaveDataSector_keptIfFailed.conseq (fun c hc _ => hc) (fun _ _ h => h)
          fun _ h => h

/-- `main`, with an accepted image. -/
theorem main_kept (hgood : Boot.checkFlashFile m0 = 0)
    (hfits : updataAppAddr + 4 + stagedLen m0 ≤ flashEnd) :
    Triple (Kept m0) main (fun _ => KeptIfFailed m0) fun _ => True := by
  have hcond : STMFLASH_ReadWord m0 updataAppAddr ≠ 0 ∧
      STMFLASH_ReadWord m0 updataAppAddr ≠ 0xffffffff := by
    by_contra hnot
    rw [Boot.checkFlashFile, if_neg hnot] at hgood
    cases hgood
  apply Triple.bind (Q := fun fileLen c => Kept m0 c ∧ fileLen = STMFLASH_ReadWord m0 updataAppAddr)
  · refine (readFlash_triple (P := Kept m0) (by decide) _).conseq (fun c hc => hc) ?_ fun _ h => h
    rintro fileLen c ⟨hc, rfl⟩
    exact ⟨hc, hc.staged.readWord⟩
  intro fileLen
  apply Triple.of_forall
  rintro c ⟨hc, rfl⟩
  rw [if_pos hcond]
  apply Triple.bind (Q := fun ret c => Kept m0 c ∧ ret = 0)
  · rintro c' power rfl
    have hcheck : checkFlashFile c' power = .done 0 c' power := by
      rw [checkFlashFile_iff, hc.staged.checkFlashFile]
      have hlen : stagedLen c'.mem = stagedLen m0 := congrArg BitVec.toNat hc.staged.readWord
      rw [hlen]
      exact ⟨hgood, hfits⟩
    rw [hcheck]
    exact ⟨⟨hc, rfl⟩, id⟩
  intro ret
  apply Triple.of_forall
  rintro c' ⟨hc', rfl⟩
  rw [if_neg (by simp)]
  apply Triple.bind (Q := fun _ => Kept m0)
  · apply clearAppDataSector_kept.conseq
    · rintro _ rfl
      exact hc'
    · exact fun _ c hc => hc
    · exact fun _ h => h
  · intro _
    apply copyApp_kept
    · decide
    · show applicationAddress + stagedLen m0 ≤ updataAppAddr
      unfold applicationAddress updataAppAddr flashEnd at *
      omega
    · exact hfits

/-- Any image that is accepted, any flags and any failures, any power: if an
    operation of the copy reports another status than `FLASH_COMPLETE`, then the
    staged length and image are as at first when `main` ends, and accepted again. -/
theorem failed_copy_keeps {c c' : Chip} {power power' : Option ℕ}
    (hgood : ∀ power, checkFlashFile c power = .done 0 c power) (hlog : c.log = [])
    (hrun : main c power = .done () c' power')
    (hfail : ∃ e ∈ c'.log, e.1.OfCopy ∧ e.2 ≠ .complete) :
    (∀ k, updataAppAddr ≤ k → k < updataAppAddr + 4 + stagedLen c.mem → c'.mem k = c.mem k) ∧
      ∀ power, checkFlashFile c' power = .done 0 c' power := by
  obtain ⟨hcheck, hfits⟩ := (checkFlashFile_iff c none).1 (hgood none)
  have hstart : Kept c.mem c := by
    refine ⟨fun _ _ _ => rfl, ?_⟩
    rintro ⟨e, he, -⟩
    rw [hlog] at he
    cases he
  have hstaged : Staged c.mem c'.mem := ((main_kept hcheck hfits).done hstart hrun hfail).staged
  refine ⟨hstaged, fun power => ?_⟩
  have hlen : stagedLen c'.mem = stagedLen c.mem := congrArg BitVec.toNat hstaged.readWord
  rw [checkFlashFile_iff, hstaged.checkFlashFile, hlen]
  exact ⟨hcheck, hfits⟩

/-- The four bytes of `stagedFour`, and a flash whose first operation fails. -/
def brokenFour : Chip where
  mem := stagedFour
  sr := 0
  fault n := if n = 0 then some ⟨0x10, fun _ => 0, by decide⟩ else none
  log := []

/-- The first erase fails; neither the first byte is programmed nor the staged image
    is erased. -/
theorem failed_copy_keeps_four :
    ∃ c', main brokenFour none = .done () c' none ∧
      c'.log = [(.eraseSector 2, .errorWrp), (.programByte applicationAddress, .errorWrp),
        (.eraseSector 9, .errorWrp)] ∧
      ∀ power, checkFlashFile c' power = .done 0 c' power := by
  have hlen : STMFLASH_ReadWord stagedFour updataAppAddr = 4 := by decide +kernel
  have hgood : ∀ power, checkFlashFile brokenFour power = .done 0 brokenFour power := by
    intro power
    rw [checkFlashFile_iff]
    refine ⟨checkFlashFile_stagedFour, ?_⟩
    show updataAppAddr + 4 + (STMFLASH_ReadWord stagedFour updataAppAddr).toNat ≤ flashEnd
    rw [hlen]
    decide
  have hword : readFlash updataAppAddr 4 (fun m => STMFLASH_ReadWord m updataAppAddr) brokenFour
      none = .done 4 brokenFour none := by
    rw [readFlash_run (by decide)]
    exact congrArg (Outcome.done · brokenFour none) hlen
  have hrun : ∃ c', main brokenFour none = .done () c' none ∧
      c'.log = [(.eraseSector 2, .errorWrp), (.programByte applicationAddress, .errorWrp),
        (.eraseSector 9, .errorWrp)] := by
    unfold main
    rw [Prog.bind_of_done hword, if_pos (by decide), Prog.bind_of_done (hgood none),
      if_neg (by decide), copyApp, if_neg (by decide)]
    exact ⟨_, rfl, rfl⟩
  obtain ⟨c', hrun, hlog⟩ := hrun
  refine ⟨c', hrun, hlog, (failed_copy_keeps hgood rfl hrun ?_).2⟩
  rw [hlog]
  exact ⟨_, List.mem_cons_self, by decide⟩

end Abox.Boot.Status
