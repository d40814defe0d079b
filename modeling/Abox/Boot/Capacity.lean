import Abox.Boot.Retry

/-!
# The size of the application

`main` accepts a staged image by its CRC alone, and the staging sectors hold
`0x5FFFC` bytes. The sectors that `clearAppDataSector` erases hold `appSize`; a
longer image is copied into sector 7 all the same, which is not erased.

* `main_completes`: without failures `main` is the one of `Abox.Boot.Main`, and
  carries out the operations `mainOps`.
* `programsErased_iff`: they program erased sectors alone, if the image is not
  longer than `appSize`.
* `copied_iff`: the copy is right exactly then.
-/

namespace Abox.Boot.Status

open Nor PowerCut Flash

/-! ## Without failures -/

/-- No flag is set, and no operation fails. -/
structure Works (c : Chip) : Prop where
  sr : c.sr &&& 0xFF = 0
  fault : ∀ n, c.fault n = none

/-- Without failures the program `p` carries out the operations `ops`, and does to
    the memory what `q` does. -/
structure Completes (p : Prog Chip α) (q : Prog Mem β) (c c' : Chip) (a : α) (b : β)
    (ops : List Operation) : Prop where
  run : p c none = .done a c' none
  boot : q c.mem none = .done b c'.mem none
  works : Works c'
  log : c'.log = c.log ++ ops.map fun op => (op, .complete)

theorem Completes.pure {c : Chip} (hc : Works c) (a : α) (b : β) :
    Completes (Pure.pure a : Prog Chip α) (Pure.pure b : Prog Mem β) c c a b [] :=
  ⟨rfl, rfl, hc, (List.append_nil _).symm⟩

theorem Completes.bind {p : Prog Chip α} {q : Prog Mem β} {c c' c'' : Chip} {a : α} {b : β}
    {k : α → Prog Chip γ} {l : β → Prog Mem δ} {d : γ} {e : δ} {ops ops' : List Operation}
    (h : Completes p q c c' a b ops) (h' : Completes (k a) (l b) c' c'' d e ops') :
    Completes (p >>= k) (q >>= l) c c'' d e (ops ++ ops') := by
  refine ⟨?_, ?_, h'.works, ?_⟩
  · rw [Prog.bind_of_done h.run, h'.run]
  · rw [Prog.bind_of_done h.boot, h'.boot]
  · rw [h'.log, h.log, List.map_append, List.append_assoc]

/-- An operation is carried out. -/
theorem FLASH_operation_completes {c : Chip} (hc : Works c) (op : Operation) (f : Mem → Mem) :
    ∃ c', Completes (FLASH_operation op f) (Prog.op f) c c' .complete () [op] := by
  have hstatus : FLASH_WaitForLastOperation c.sr = .complete := (complete_iff _).2 hc.sr
  have hstart : c.start op f = { c with mem := f c.mem, fault := fun n => c.fault (n + 1) } := by
    unfold Chip.start
    rw [hc.fault 0]
  refine ⟨(c.start op f).report op .complete, ?_, ?_, ?_, ?_⟩
  · have hrun : FLASH_operation op f c none =
        (if FLASH_WaitForLastOperation c.sr = .complete then
          (do
            Prog.op (Chip.start op f)
            let status ← Prog.get fun c => FLASH_WaitForLastOperation c.sr
            Prog.record (Chip.report op status)
            return status)
        else
          (do
            Prog.record (Chip.report op (FLASH_WaitForLastOperation c.sr))
            return FLASH_WaitForLastOperation c.sr) : Prog Chip FlashStatus) c none := rfl
    rw [hrun, if_pos hstatus]
    show Outcome.done (FLASH_WaitForLastOperation (c.start op f).sr)
      ((c.start op f).report op (FLASH_WaitForLastOperation (c.start op f).sr)) none = _
    rw [hstart]
    show Outcome.done (FLASH_WaitForLastOperation c.sr) _ none = _
    rw [hstatus]
  · rw [hstart]
    rfl
  · rw [hstart]
    exact ⟨hc.sr, fun n => hc.fault (n + 1)⟩
  · rw [hstart]
    rfl

theorem Completes.assert {p : Prog Chip α} {q : Prog Mem β} {c c' : Chip} {a : α} {b : β}
    {ops : List Operation} (h : Completes p q c c' a b ops) {t : Bool} (ht : t = true) :
    Completes (do Prog.assert t; p) (do Prog.assert t; q) c c' a b ops := by
  have hassert : Prog.assert t c none = .done () c none := if_pos ht
  have hassert' : Prog.assert t c.mem none = .done () c.mem none := if_pos ht
  refine ⟨?_, ?_, h.works, h.log⟩
  · rw [Prog.bind_of_done hassert, h.run]
  · rw [Prog.bind_of_done hassert', h.boot]

theorem Completes.readFlash {k : α → Prog Chip β} {l : α → Prog Mem γ} {c c' : Chip} {b : β}
    {d : γ} {ops : List Operation} {readAddr n : ℕ} {f : Mem → α}
    (h : Completes (k (f c.mem)) (l (f c.mem)) c c' b d ops) (hfits : readAddr + n ≤ flashEnd) :
    Completes (readFlash readAddr n f >>= k) (Prog.get f >>= l) c c' b d ops := by
  have hget : Prog.get f c.mem none = .done (f c.mem) c.mem none := rfl
  refine ⟨?_, ?_, h.works, h.log⟩
  · rw [Prog.bind_of_done (readFlash_run hfits f c none), h.run]
  · rw [Prog.bind_of_done hget, h.boot]

/-! ## The operations of `main` -/

/-- The sectors of the addresses are erased. -/
def eraseOps (addrs : List ℕ) : List Operation :=
  addrs.map fun a => .eraseSector (STMFLASH_GetFlashSector a)

theorem eraseSectors_completes {c : Chip} (hc : Works c) (addrs : List ℕ) :
    ∃ c', Completes (eraseSectors addrs)
      (addrs.forM fun a => Boot.FLASH_EraseSector (STMFLASH_GetFlashSector a)) c c' () ()
      (eraseOps addrs) := by
  induction addrs generalizing c with
  | nil => exact ⟨c, .pure hc () ()⟩
  | cons a addrs ih =>
    obtain ⟨c1, h1⟩ := FLASH_operation_completes hc (.eraseSector (STMFLASH_GetFlashSector a))
      fun m => Flash.FLASH_EraseSector m (STMFLASH_GetFlashSector a)
    obtain ⟨c2, h2⟩ := ih h1.works
    refine ⟨c2, h1.bind ?_⟩
    rw [if_pos rfl]
    exact h2

/-- `n` words are programmed. -/
def wordOps (writeAddr n : ℕ) : List Operation :=
  (List.range n).map fun i => .programWord (writeAddr + 4 * i)

/-- `n` bytes are programmed. -/
def byteOps (writeAddr n : ℕ) : List Operation :=
  (List.range n).map fun i => .programByte (writeAddr + i)

theorem map_range_succ {f g : ℕ → Operation} (h : ∀ i, f (i + 1) = g i) (n : ℕ) :
    (List.range (n + 1)).map f = [f 0] ++ (List.range n).map g := by
  rw [List.range_succ_eq_map, List.map_cons, List.map_map, List.singleton_append]
  congr 1
  exact List.map_congr_left fun i _ => h i

theorem wordOps_succ (a n : ℕ) :
    wordOps a (n + 1) = [.programWord a] ++ wordOps (a + 4) n := by
  apply map_range_succ
  intro i
  show Operation.programWord (a + 4 * (i + 1)) = .programWord (a + 4 + 4 * i)
  congr 1
  omega

theorem byteOps_succ (a n : ℕ) :
    byteOps a (n + 1) = [.programByte a] ++ byteOps (a + 1) n := by
  apply map_range_succ
  intro i
  show Operation.programByte (a + (i + 1)) = .programByte (a + 1 + i)
  congr 1
  omega

theorem STMFLASH_Write_completes {c : Chip} (hc : Works c) {a : ℕ} (ws : List (BitVec 32))
    (h1 : 0x08000000 ≤ a) (h2 : a + 4 * ws.length ≤ updataAppAddr) :
    ∃ c', Completes (STMFLASH_Write a ws) (Boot.STMFLASH_Write a ws) c c' () ()
      (wordOps a ws.length) := by
  induction ws generalizing c a with
  | nil => exact ⟨c, .pure hc () ()⟩
  | cons w ws ih =>
    rw [List.length_cons] at h2
    have haddr : isFlashAddress a = true :=
      isFlashAddress_of_lt h1 (by unfold updataAppAddr at h2; omega)
    obtain ⟨c1, h3⟩ := FLASH_operation_completes hc (.programWord a)
      fun m => programs m a (Layout.word.encode w)
    have hword := h3.assert haddr
    obtain ⟨c2, h4⟩ := ih (a := a + 4) h3.works (by omega) (by omega)
    rw [List.length_cons, wordOps_succ]
    refine ⟨c2, hword.bind ?_⟩
    rw [if_pos rfl]
    exact h4

theorem programBytes_completes {c : Chip} (hc : Works c) {a : ℕ} (bs : List Byte)
    (h1 : 0x08000000 ≤ a) (h2 : a + bs.length ≤ updataAppAddr) :
    ∃ c', Completes (programBytes a bs) (Boot.programBytes a bs) c c' () ()
      (byteOps a bs.length) := by
  induction bs generalizing c a with
  | nil => exact ⟨c, .pure hc () ()⟩
  | cons b bs ih =>
    rw [List.length_cons] at h2
    have haddr : isFlashAddress a = true :=
      isFlashAddress_of_lt h1 (by unfold updataAppAddr at h2; omega)
    obtain ⟨c1, h3⟩ := FLASH_operation_completes hc (.programByte a) fun m => program m a b
    have hbyte := h3.assert haddr
    obtain ⟨c2, h4⟩ := ih (a := a + 1) h3.works (by omega) (by omega)
    rw [List.length_cons, byteOps_succ]
    refine ⟨c2, hbyte.bind ?_⟩
    rw [if_pos rfl]
    exact h4

theorem writeByteToFlash_completes {c : Chip} (hc : Works c) {a : ℕ} (bs : List Byte)
    (h1 : 0x08000000 ≤ a) (h2 : a + bs.length ≤ updataAppAddr) :
    ∃ c', Completes (writeByteToFlash a bs) (Boot.writeByteToFlash a bs) c c' () ()
      (byteOps a bs.length) := by
  unfold writeByteToFlash Boot.writeByteToFlash
  by_cases hnil : bs = []
  · rw [if_pos (Or.inr hnil), if_pos (Or.inr hnil), hnil]
    exact ⟨c, .pure hc () ()⟩
  · have hnot : ¬ (a = 0 ∨ bs = []) := by
      rintro (h | h)
      · omega
      · exact hnil h
    rw [if_neg hnot, if_neg hnot]
    exact programBytes_completes hc bs h1 h2

/-- The blocks of the copy loop, in words, and the rest, in bytes. -/
def copyOps (writeAddr fileLen : ℕ) : List Operation :=
  if bufSize < fileLen then
    wordOps writeAddr (bufSize / 4) ++ copyOps (writeAddr + bufSize) (fileLen - bufSize)
  else byteOps writeAddr fileLen
termination_by fileLen
decreasing_by
  unfold bufSize at *
  omega

/-- The sectors of `clearAppDataSector`. -/
def appOps : List Operation := [2, 3, 4, 5, 6].map .eraseSector

/-- The sectors of `clearSaveDataSector`. -/
def saveOps : List Operation := [9, 10, 11].map .eraseSector

/-- The operations of `main` on an accepted image. -/
def mainOps (fileLen : ℕ) : List Operation :=
  appOps ++ (copyOps applicationAddress fileLen ++ saveOps)

theorem clearAppDataSector_completes {c : Chip} (hc : Works c) :
    ∃ c', Completes clearAppDataSector Boot.clearAppDataSector c c' () () appOps :=
  eraseSectors_completes hc _

theorem clearSaveDataSector_completes {c : Chip} (hc : Works c) :
    ∃ c', Completes clearSaveDataSector Boot.clearSaveDataSector c c' () () saveOps :=
  eraseSectors_completes hc _

theorem copyApp_completes {c : Chip} (hc : Works c) {readAddr writeAddr fileLen : ℕ}
    (h1 : 0x08000000 ≤ writeAddr) (h2 : writeAddr + fileLen ≤ updataAppAddr)
    (h3 : readAddr + fileLen ≤ flashEnd) :
    ∃ c', Completes (copyApp readAddr writeAddr fileLen) (Boot.copyApp readAddr writeAddr fileLen)
      c c' () () (copyOps writeAddr fileLen ++ saveOps) := by
  induction fileLen using Nat.strong_induction_on generalizing c readAddr writeAddr with
  | _ fileLen ih =>
    rw [copyApp, Boot.copyApp, copyOps]
    by_cases hbig : bufSize < fileLen
    · rw [if_pos hbig, if_pos hbig, if_pos hbig]
      have hpos := bufSize_pos
      generalize hwords : bufSize / 4 = words
      obtain ⟨c1, hwrite⟩ := STMFLASH_Write_completes hc
        ((List.range words).map fun i => STMFLASH_ReadWord c.mem (readAddr + 4 * i)) h1
        (by rw [List.length_map, List.length_range]; omega)
      rw [List.length_map, List.length_range] at hwrite
      obtain ⟨c2, hrest⟩ := ih (fileLen - bufSize) (by omega) hwrite.works
        (show 0x08000000 ≤ writeAddr + bufSize by omega) (by omega)
        (show readAddr + bufSize + (fileLen - bufSize) ≤ flashEnd by omega)
      refine ⟨c2, Completes.readFlash ?_ (show readAddr + 4 * words ≤ flashEnd by omega)⟩
      rw [List.append_assoc]
      exact hwrite.bind hrest
    · rw [if_neg hbig, if_neg hbig, if_neg hbig]
      obtain ⟨c1, hwrite⟩ := writeByteToFlash_completes hc (read c.mem readAddr fileLen) h1
        (by rw [length_read]; exact h2)
      rw [length_read] at hwrite
      obtain ⟨c2, hclear⟩ := clearSaveDataSector_completes hwrite.works
      exact ⟨c2, Completes.readFlash (hwrite.bind hclear) h3⟩

/-- Without failures, `main` carries out `mainOps` on an accepted image. -/
theorem main_completes {c : Chip} (hc : Works c)
    (hgood : ∀ power, checkFlashFile c power = .done 0 c power) :
    ∃ c', Completes main Boot.main c c' () () (mainOps (stagedLen c.mem)) := by
  obtain ⟨hcheck, hfits⟩ := (checkFlashFile_iff c none).1 (hgood none)
  have hcond : STMFLASH_ReadWord c.mem updataAppAddr ≠ 0 ∧
      STMFLASH_ReadWord c.mem updataAppAddr ≠ 0xffffffff := by
    by_contra hnot
    rw [Boot.checkFlashFile, if_neg hnot] at hcheck
    cases hcheck
  obtain ⟨c1, herase⟩ := clearAppDataSector_completes hc
  obtain ⟨c2, hcopy⟩ := copyApp_completes herase.works
    (show 0x08000000 ≤ applicationAddress by decide)
    (show applicationAddress + stagedLen c.mem ≤ updataAppAddr by
      unfold applicationAddress updataAppAddr flashEnd at *
      omega) hfits
  have hrest : Completes
      (do clearAppDataSector; copyApp (updataAppAddr + 4) applicationAddress (stagedLen c.mem))
      (do Boot.clearAppDataSector
          Boot.copyApp (updataAppAddr + 4) applicationAddress (stagedLen c.mem))
      c c2 () () (mainOps (stagedLen c.mem)) := herase.bind hcopy
  have hret : Prog.get Boot.checkFlashFile c.mem none = .done 0 c.mem none :=
    congrArg (Outcome.done · c.mem none) hcheck
  refine ⟨c2, Completes.readFlash ?_ (by decide)⟩
  rw [if_pos hcond, if_pos hcond]
  refine ⟨?_, ?_, hrest.works, hrest.log⟩
  · rw [Prog.bind_of_done (hgood none), if_neg (by simp)]
    exact hrest.run
  · rw [Prog.bind_of_done hret, if_neg (by simp)]
    exact hrest.boot

/-! ## What is programmed -/

/-- The bytes an operation programs. -/
def Operation.Programs : Operation → ℕ → Prop
  | .eraseSector _, _ => False
  | .programWord address, k => address ≤ k ∧ k < address + 4
  | .programByte address, k => k = address

/-- One of the operations programs the byte. -/
def Programmed (ops : List Operation) (k : ℕ) : Prop := ∃ op ∈ ops, op.Programs k

theorem programmed_append {ops ops' : List Operation} {k : ℕ} :
    Programmed (ops ++ ops') k ↔ Programmed ops k ∨ Programmed ops' k := by
  simp only [Programmed, List.mem_append, or_and_right, exists_or]

theorem not_programmed_erase {sectors : List ℕ} {k : ℕ} :
    ¬ Programmed (sectors.map .eraseSector) k := by
  rintro ⟨op, hop, hk⟩
  obtain ⟨sector, -, rfl⟩ := List.mem_map.1 hop
  exact hk

theorem programmed_wordOps {a n k : ℕ} :
    Programmed (wordOps a n) k ↔ a ≤ k ∧ k < a + 4 * n := by
  constructor
  · rintro ⟨op, hop, hk⟩
    obtain ⟨i, hi, rfl⟩ := List.mem_map.1 hop
    have hlt := List.mem_range.1 hi
    have hbounds : a + 4 * i ≤ k ∧ k < a + 4 * i + 4 := hk
    omega
  · rintro ⟨h1, h2⟩
    refine ⟨.programWord (a + 4 * ((k - a) / 4)), ?_, ?_⟩
    · exact List.mem_map.2 ⟨(k - a) / 4, List.mem_range.2 (by omega), rfl⟩
    · show a + 4 * ((k - a) / 4) ≤ k ∧ k < a + 4 * ((k - a) / 4) + 4
      omega

theorem programmed_byteOps {a n k : ℕ} : Programmed (byteOps a n) k ↔ a ≤ k ∧ k < a + n := by
  constructor
  · rintro ⟨op, hop, hk⟩
    obtain ⟨i, hi, rfl⟩ := List.mem_map.1 hop
    have hlt := List.mem_range.1 hi
    have heq : k = a + i := hk
    omega
  · rintro ⟨h1, h2⟩
    refine ⟨.programByte (a + (k - a)), ?_, ?_⟩
    · exact List.mem_map.2 ⟨k - a, List.mem_range.2 (by omega), rfl⟩
    · show k = a + (k - a)
      omega

/-- The copy programs the bytes of the image, and no others. -/
theorem programmed_copyOps {a n k : ℕ} : Programmed (copyOps a n) k ↔ a ≤ k ∧ k < a + n := by
  induction n using Nat.strong_induction_on generalizing a with
  | _ n ih =>
    rw [copyOps]
    by_cases hbig : bufSize < n
    · have hpos := bufSize_pos
      have hwords := bufSize_eq
      rw [if_pos hbig, programmed_append, programmed_wordOps, ih _ (by omega), hwords]
      omega
    · rw [if_neg hbig, programmed_byteOps]

theorem programmed_mainOps {n k : ℕ} :
    Programmed (mainOps n) k ↔ applicationAddress ≤ k ∧ k < applicationAddress + n := by
  unfold mainOps appOps saveOps
  rw [programmed_append, programmed_append, programmed_copyOps]
  simp only [not_programmed_erase, false_or, or_false]

/-- Every byte that is programmed lies in a sector of the application that has been
    erased. -/
def ProgramsErased (log : List (Operation × FlashStatus)) : Prop :=
  ∀ e ∈ log, ∀ k, e.1.Programs k → ∃ sector, (.eraseSector sector, .complete) ∈ log ∧
    (Operation.eraseSector sector).OfCopy ∧ (Operation.eraseSector sector).Targets k

/-- The sectors of the application. -/
theorem exists_sector_iff {k : ℕ} (h : applicationAddress ≤ k) :
    (∃ sector, (Operation.eraseSector sector).OfCopy ∧ (Operation.eraseSector sector).Targets k) ↔
      k < applicationAddress + appSize := by
  have hmem : ∀ sector, (Operation.eraseSector sector).Targets k ↔
      addrFlashSector.getD sector flashEnd ≤ k ∧
        k < addrFlashSector.getD (sector + 1) flashEnd := fun _ => Iff.rfl
  unfold applicationAddress appSize at *
  constructor
  · rintro ⟨sector, hcopy, hk⟩
    rw [hmem] at hk
    have hlast : addrFlashSector.getD (sector + 1) flashEnd ≤ 0x08060000 := by
      obtain ⟨h2, h6⟩ : 2 ≤ sector ∧ sector ≤ 6 := hcopy
      interval_cases sector <;> decide
    omega
  · intro hk
    by_cases h3 : k < 0x0800C000
    · exact ⟨2, by decide, show 0x08008000 ≤ k ∧ k < 0x0800C000 from ⟨h, h3⟩⟩
    by_cases h4 : k < 0x08010000
    · exact ⟨3, by decide, show 0x0800C000 ≤ k ∧ k < 0x08010000 from ⟨Nat.le_of_not_lt h3, h4⟩⟩
    by_cases h5 : k < 0x08020000
    · exact ⟨4, by decide, show 0x08010000 ≤ k ∧ k < 0x08020000 from ⟨Nat.le_of_not_lt h4, h5⟩⟩
    by_cases h6 : k < 0x08040000
    · exact ⟨5, by decide, show 0x08020000 ≤ k ∧ k < 0x08040000 from ⟨Nat.le_of_not_lt h5, h6⟩⟩
    · exact ⟨6, by decide, show 0x08040000 ≤ k ∧ k < 0x08060000 from ⟨Nat.le_of_not_lt h6, hk⟩⟩

/-- The operations of `main` program erased sectors alone if and only if the image
    fits into the sectors of the application. -/
theorem programsErased_iff (n : ℕ) :
    ProgramsErased ((mainOps n).map fun op => (op, .complete)) ↔ n ≤ appSize := by
  have hlog : ∀ op, (op, FlashStatus.complete) ∈ (mainOps n).map (fun op => (op, .complete)) ↔
      op ∈ mainOps n := by
    intro op
    simp
  constructor
  · intro h
    by_contra hn
    obtain ⟨op, hop, hk⟩ := programmed_mainOps.2
      ⟨Nat.le_add_right applicationAddress appSize, Nat.add_lt_add_left (Nat.lt_of_not_le hn) _⟩
    obtain ⟨sector, -, hsector⟩ := h _ ((hlog op).2 hop) _ hk
    have := (exists_sector_iff (Nat.le_add_right _ _)).1 ⟨sector, hsector⟩
    exact absurd this (lt_irrefl _)
  · intro hn e he k hk
    obtain ⟨op, hop, rfl⟩ := List.mem_map.1 he
    obtain ⟨h1, h2⟩ := programmed_mainOps.1 ⟨op, hop, hk⟩
    obtain ⟨sector, hcopy, htarget⟩ := (exists_sector_iff h1).2 (by omega)
    refine ⟨sector, (hlog _).2 ?_, hcopy, htarget⟩
    apply List.mem_append_left
    obtain ⟨h2, h6⟩ : 2 ≤ sector ∧ sector ≤ 6 := hcopy
    interval_cases sector <;> decide

/-! ## The copy -/

/-- For every accepted image, with no flag set and no failure: `main` ends, and then
    the application is the image and every byte that was programmed lies in an erased
    sector of the application, if and only if the image is not longer than
    `appSize`. -/
theorem copied_iff {c : Chip} (hc : Works c) (hlog : c.log = [])
    (hgood : ∀ power, checkFlashFile c power = .done 0 c power) :
    ∃ c', main c none = .done () c' none ∧
      ((∀ k < stagedLen c.mem,
          c'.mem (applicationAddress + k) = c.mem (updataAppAddr + 4 + k)) ∧
        ProgramsErased c'.log ↔ stagedLen c.mem ≤ appSize) := by
  obtain ⟨c', hmain⟩ := main_completes hc hgood
  have hlog' : c'.log = (mainOps (stagedLen c.mem)).map fun op => (op, .complete) := by
    rw [hmain.log, hlog, List.nil_append]
  refine ⟨c', hmain.run, ?_⟩
  rw [hlog', programsErased_iff]
  constructor
  · exact And.right
  · intro hlen
    have hcheck := ((checkFlashFile_iff c none).1 (hgood none)).1
    have hstart : GoodInv c.mem c.mem := Or.inl fun _ _ _ => rfl
    exact ⟨(main_good hcheck hlen).done hstart hmain.boot, hlen⟩

/-- A flash without failures that holds `m`. -/
def working (m : Mem) : Chip where
  mem := m
  sr := 0
  fault _ := none
  log := []

theorem working_works (m : Mem) : Works (working m) where
  sr := by
    show (0 : BitVec 32) &&& 0xFF = 0
    decide
  fault _ := rfl

theorem copied_four : ∃ c', main (working stagedFour) none = .done () c' none ∧
    (∀ k < 4, c'.mem (applicationAddress + k) = 0xFF) ∧ ProgramsErased c'.log := by
  have hlen : stagedLen stagedFour = 4 := by
    have hword : STMFLASH_ReadWord stagedFour updataAppAddr = 4 := by decide +kernel
    rw [stagedLen, hword]
    rfl
  have hgood : ∀ power, checkFlashFile (working stagedFour) power =
      .done 0 (working stagedFour) power := by
    intro power
    rw [checkFlashFile_iff]
    refine ⟨checkFlashFile_stagedFour, ?_⟩
    show updataAppAddr + 4 + stagedLen stagedFour ≤ flashEnd
    rw [hlen]
    decide
  obtain ⟨c', hrun, hiff⟩ := copied_iff (working_works stagedFour) rfl hgood
  have hfits : stagedLen stagedFour ≤ appSize := by
    rw [hlen]
    decide
  obtain ⟨hcopy, herased⟩ := hiff.2 hfits
  refine ⟨c', hrun, fun k hk => ?_, herased⟩
  rw [hcopy k (by rw [show (working stagedFour).mem = stagedFour from rfl, hlen]; exact hk)]
  interval_cases k <;> rfl

/-! ## An image of one byte too many -/

/-- The bytes `FF FF FF FF 00 .. 00`, one more than the application has room for. -/
def stagedLong : Mem := fun k =>
  if k = updataAppAddr then 0x01
  else if k = updataAppAddr + 1 then 0x80
  else if k = updataAppAddr + 2 then 0x05
  else if updataAppAddr + 4 ≤ k ∧ k < updataAppAddr + 8 then 0xFF
  else 0

theorem stagedLen_stagedLong : stagedLen stagedLong = 0x58001 := by
  have hword : STMFLASH_ReadWord stagedLong updataAppAddr = 0x58001 := by decide +kernel
  rw [stagedLen, hword]
  rfl

theorem crc32_replicate_zero (n : ℕ) : crc32 0 (List.replicate n 0) = 0 := by
  induction n with
  | zero => rfl
  | succ n ih =>
    have hzero : crc32 0 [0] = 0 := by decide +kernel
    rw [List.replicate_succ, ← List.singleton_append, crc32_append, hzero]
    exact ih

theorem read_stagedLong (n : ℕ) :
    read stagedLong (updataAppAddr + 4) (4 + n) =
      [0xFF, 0xFF, 0xFF, 0xFF] ++ List.replicate n 0 := by
  rw [read_append]
  congr 1
  apply List.ext_getElem
  · rw [length_read, List.length_replicate]
  · intro i hi _
    rw [getElem_read, List.getElem_replicate]
    unfold stagedLong updataAppAddr
    rw [if_neg (by omega), if_neg (by omega), if_neg (by omega), if_neg (by omega)]

theorem checkFlashFile_stagedLong (power : Option ℕ) :
    checkFlashFile (working stagedLong) power = .done 0 (working stagedLong) power := by
  have hword : STMFLASH_ReadWord stagedLong updataAppAddr = 0x58001 := by decide +kernel
  have hcrc : calcFlashCrc stagedLong (updataAppAddr + 4) 0x58001 = 0 := by
    have hread : read stagedLong (updataAppAddr + 4) 0x58001 =
        [0xFF, 0xFF, 0xFF, 0xFF] ++ List.replicate 0x57FFD 0 := read_stagedLong 0x57FFD
    have hones : crc32 0xffffffff [0xFF, 0xFF, 0xFF, 0xFF] = 0 := by decide +kernel
    rw [calcFlashCrc_eq, hread, crc32_append, hones, crc32_replicate_zero]
  rw [checkFlashFile_iff]
  constructor
  · show Boot.checkFlashFile stagedLong = 0
    unfold Boot.checkFlashFile
    rw [hword]
    show (if (0x58001 : BitVec 32) ≠ 0 ∧ (0x58001 : BitVec 32) ≠ 0xffffffff then
      if calcFlashCrc stagedLong (updataAppAddr + 4) 0x58001 = 0 then 0 else 1 else 1) = 0
    rw [hcrc]
    rfl
  · show updataAppAddr + 4 + stagedLen stagedLong ≤ flashEnd
    rw [stagedLen_stagedLong]
    decide

/-- The last byte of the image is programmed in sector 7, which is not erased. -/
theorem programs_sector_seven : ∃ c', main (working stagedLong) none = .done () c' none ∧
    (∃ e ∈ c'.log, e.1.Programs 0x08060000 ∧ e.2 = .complete) ∧ ¬ ProgramsErased c'.log := by
  obtain ⟨c', hmain⟩ := main_completes (working_works stagedLong) checkFlashFile_stagedLong
  have hlog : c'.log = (mainOps 0x58001).map fun op => (op, .complete) := by
    rw [hmain.log]
    show [] ++ (mainOps (stagedLen stagedLong)).map _ = _
    rw [stagedLen_stagedLong, List.nil_append]
  refine ⟨c', hmain.run, ?_, ?_⟩
  · obtain ⟨op, hop, hk⟩ := programmed_mainOps.2
      (show applicationAddress ≤ 0x08060000 ∧ 0x08060000 < applicationAddress + 0x58001 by decide)
    rw [hlog]
    exact ⟨(op, .complete), List.mem_map.2 ⟨op, hop, rfl⟩, hk, rfl⟩
  · rw [hlog, programsErased_iff]
    decide

end Abox.Boot.Status
