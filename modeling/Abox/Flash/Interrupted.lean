import Abox.Boot.Status
import Abox.Flash.Secret

/-!
# Saves that are interrupted

`setSecret_1` again (`Abox/src/flash_control.c` lines 43–99), on a flash whose
operations can fail, with a power supply that can. An operation is one erase of
a sector or one programmed byte. The driver is that of `Abox.Boot.Status`
(`Libraries/STM32F4xx_StdPeriph_Driver/src/stm32f4xx_flash.c` has the same
functions): an operation that fails is not carried out and sets an error flag in
`FLASH->SR`, and as nothing in `flash_control.c` clears it, all operations behind
it are refused. The results of the erase and of `writeByteToFlash` are not looked
at.

* `save_interrupted`: what each record reads as, wherever the save stops.
* `save_cut_after_erase`: a power cut behind the erase destroys records that
  were not being saved.
-/

namespace Abox.Flash.Interrupted

open Nor PowerCut
open Boot.Status (FlashStatus FLASH_WaitForLastOperation)

/-! ## The flash interface -/

/-- The error flags that an operation sets when it cannot be carried out, at least one
    of those `FLASH_GetStatus` looks at. -/
structure Failure where
  flags : BitVec 32
  failed : flags &&& 0xFF ≠ 0

/-- The flash, `FLASH->SR`, the failures of the operations to come, and the addresses
    that were programmed since the last erase. -/
structure Chip where
  mem : Mem
  sr : BitVec 32
  failure : ℕ → Option Failure
  programmed : List ℕ

def Chip.init (m : Mem) (sr : BitVec 32) (failure : ℕ → Option Failure) : Chip :=
  ⟨m, sr, failure, []⟩

def Chip.erase (sector : ℕ) (c : Chip) : Chip :=
  { c with mem := Flash.FLASH_EraseSector c.mem sector, programmed := [] }

def Chip.program (address : ℕ) (data : Byte) (c : Chip) : Chip :=
  { c with mem := Nor.program c.mem address data, programmed := address :: c.programmed }

/-- The operation `f` is started. -/
def Chip.start (f : Chip → Chip) (c : Chip) : Chip :=
  match c.failure 0 with
  | none => { f c with failure := fun n => c.failure (n + 1) }
  | some e => { c with sr := c.sr ||| e.flags, failure := fun n => c.failure (n + 1) }

/-- What `FLASH_EraseSector` and `FLASH_ProgramByte` have in common. -/
def FLASH_operation (f : Chip → Chip) : Prog Chip FlashStatus := do
  let status ← Prog.get fun c => FLASH_WaitForLastOperation c.sr
  if status = .complete then
    Prog.op (Chip.start f)
    Prog.get fun c => FLASH_WaitForLastOperation c.sr
  else
    return status

/-- `FLASH_EraseSector` (`stm32f4xx_flash.c` lines 341–387). -/
def FLASH_EraseSector (sector : ℕ) : Prog Chip FlashStatus := FLASH_operation (Chip.erase sector)

/-- `FLASH_ProgramByte` (lines 573–601). -/
def FLASH_ProgramByte (address : ℕ) (data : Byte) : Prog Chip FlashStatus := do
  Prog.assert (isFlashAddress address)
  FLASH_operation (Chip.program address data)

/-! ## The save -/

/-- The loop of `writeByteToFlash`. -/
def programBytes (writeAddr : ℕ) : List Byte → Prog Chip RtErr
  | [] => return .rtEok
  | b :: data => do
    let status ← FLASH_ProgramByte writeAddr b
    if status = .complete then programBytes (writeAddr + 1) data else return .rtError

/-- `writeByteToFlash` (`flash_control.c` lines 162–195). -/
def writeByteToFlash (writeAddr : ℕ) (data : List Byte) : Prog Chip RtErr :=
  if writeAddr = 0 ∨ data = [] then return .rtError else programBytes writeAddr data

/-- `STMFLASH_ReadMoreByte` (lines 150–160). -/
def STMFLASH_ReadMoreByte (readAddr numToRead : ℕ) : Prog Chip (List Byte) :=
  Prog.get fun c => Flash.STMFLASH_ReadMoreByte c.mem readAddr numToRead

/-- `setSecret_1` (lines 43–99). -/
def setSecret_1 (writeAddr : ℕ) (pBuffer : List Byte) : Prog Chip Unit :=
  if STMFLASH_GetFlashSector writeAddr = 1 then do
    let setup_temp ← STMFLASH_ReadMoreByte dataAddr sizeofStSysSetup
    let freqInfo ← STMFLASH_ReadMoreByte dataFreqAddr sizeofFreqInformation
    let serNetInfo ← STMFLASH_ReadMoreByte serverNetInfoAddr sizeofServerNetInformation
    let setup_temp :=
      if writeAddr = dataAddr then readN pBuffer sizeofStSysSetup else setup_temp
    let freqInfo :=
      if writeAddr = dataFreqAddr then readN pBuffer sizeofFreqInformation else freqInfo
    let serNetInfo :=
      if writeAddr = serverNetInfoAddr then readN pBuffer sizeofServerNetInformation
      else serNetInfo
    let _ ← FLASH_EraseSector 1
    let _ ← writeByteToFlash dataAddr setup_temp
    let _ ← writeByteToFlash dataFreqAddr freqInfo
    let _ ← writeByteToFlash serverNetInfoAddr serNetInfo
    return ()
  else return ()

/-- A run that ends, or is cut, leaves the flash `c`. -/
def Leaves (c : Chip) : Outcome Chip Unit → Prop
  | .done _ c' _ => c' = c
  | .cut c' => c' = c
  | .hang => False

/-- The three writes of `setSecret_1`. -/
def writes (w : Record → List Byte) : Prog Chip Unit := do
  let _ ← writeByteToFlash dataAddr (w .setup)
  let _ ← writeByteToFlash dataFreqAddr (w .freq)
  let _ ← writeByteToFlash serverNetInfoAddr (w .server)
  return ()

/-- The records are read before anything else, which leaves the erase and the
    three writes. -/
theorem setSecret_1_writes {writeAddr : ℕ} (h : STMFLASH_GetFlashSector writeAddr = 1)
    (pBuffer : List Byte) (c : Chip) (power : Option ℕ) :
    setSecret_1 writeAddr pBuffer c power =
      (FLASH_EraseSector 1 >>= fun _ => writes (written c.mem writeAddr pBuffer)) c power := by
  unfold setSecret_1
  rw [if_pos h]
  rfl

/-! ## One operation -/

/-- No error flag is set. -/
def Chip.Complete (c : Chip) : Prop := FLASH_WaitForLastOperation c.sr = .complete

theorem Chip.start_of_none {f : Chip → Chip} {c : Chip} (h : c.failure 0 = none) :
    c.start f = { f c with failure := fun n => c.failure (n + 1) } := by
  simp only [Chip.start, h]

theorem Chip.start_of_some {f : Chip → Chip} {c : Chip} {e : Failure} (h : c.failure 0 = some e) :
    c.start f = { c with sr := c.sr ||| e.flags, failure := fun n => c.failure (n + 1) } := by
  simp only [Chip.start, h]

/-- A failure is seen by all operations behind it. -/
theorem Chip.not_complete_start {f : Chip → Chip} {c : Chip} {e : Failure}
    (h : c.failure 0 = some e) : ¬ (c.start f).Complete := by
  rw [Chip.start_of_some h]
  exact Boot.Status.not_complete_or c.sr ⟨e.flags, c.mem, e.failed⟩

/-- An operation is refused, or started. -/
theorem FLASH_operation_triple {P C : Chip → Prop} {Q : FlashStatus → Chip → Prop}
    {f : Chip → Chip}
    (hrefused : ∀ c, P c → ¬ c.Complete → Q (FLASH_WaitForLastOperation c.sr) c)
    (hstart : ∀ c, P c → c.Complete → Q (FLASH_WaitForLastOperation (c.start f).sr) (c.start f))
    (hcut : ∀ c, P c → C c) : Triple P (FLASH_operation f) Q C := by
  apply Triple.bind (Q := fun status c => P c ∧ status = FLASH_WaitForLastOperation c.sr)
  · exact Triple.get fun c hc => ⟨hc, rfl⟩
  intro status
  by_cases hstatus : status = .complete
  · rw [if_pos hstatus]
    apply Triple.bind (Q := fun _ c => Q (FLASH_WaitForLastOperation c.sr) c)
    · apply Triple.op
      · intro c hc
        exact hstart c hc.1 (hc.2.symm.trans hstatus)
      · intro c hc
        exact hcut c hc.1
    · intro _
      exact Triple.get fun c hc => hc
  · rw [if_neg hstatus]
    apply Triple.pure
    rintro c ⟨hc, rfl⟩
    exact hrefused c hc hstatus

/-- An operation that is neither refused nor cut is started. -/
theorem FLASH_operation_done {f : Chip → Chip} {c : Chip} (h : c.Complete) {power power' : Option ℕ}
    (hop : Prog.op (Chip.start f) c power = .done () (c.start f) power') :
    FLASH_operation f c power =
      .done (FLASH_WaitForLastOperation (c.start f).sr) (c.start f) power' := by
  have hget : Prog.get (fun c : Chip => FLASH_WaitForLastOperation c.sr) c power =
      .done .complete c power := congrArg (Outcome.done · c power) h
  unfold FLASH_operation
  rw [Prog.bind_of_done hget, if_pos rfl, Prog.bind_of_done hop]
  rfl

/-- An operation that is refused. -/
theorem FLASH_operation_refused {f : Chip → Chip} {c : Chip} (h : ¬ c.Complete)
    (power : Option ℕ) :
    FLASH_operation f c power = .done (FLASH_WaitForLastOperation c.sr) c power := by
  have hget : Prog.get (fun c : Chip => FLASH_WaitForLastOperation c.sr) c power =
      .done (FLASH_WaitForLastOperation c.sr) c power := rfl
  have hstatus : FLASH_WaitForLastOperation c.sr ≠ .complete := h
  unfold FLASH_operation
  rw [Prog.bind_of_done hget, if_neg hstatus]
  rfl

/-! ## While an error flag is set -/

section

variable {m : Mem}

/-- The flash is `m`, and every operation is refused. -/
def Refusing (m : Mem) (c : Chip) : Prop := c.mem = m ∧ ¬ c.Complete

theorem programBytes_refused {a : ℕ} {data : List Byte}
    (hflash : ∀ k < data.length, isFlashAddress (a + k) = true) :
    Triple (Refusing m) (programBytes a data) (fun _ => Refusing m) (Refusing m) := by
  cases data with
  | nil => exact Triple.pure fun c hc => hc
  | cons b data =>
    apply Triple.bind (Q := fun status c => Refusing m c ∧ status ≠ .complete)
    · apply Triple.bind (Q := fun _ => Refusing m)
      · exact Triple.assert (hflash 0 (Nat.succ_pos _)) fun c hc => hc
      intro _
      apply FLASH_operation_triple
      · intro c hc hnot
        exact ⟨hc, hnot⟩
      · intro c hc hcomplete
        exact absurd hcomplete hc.2
      · intro c hc
        exact hc
    intro status
    by_cases hstatus : status = .complete
    · intro c power hc
      exact absurd hstatus hc.2
    · rw [if_neg hstatus]
      exact Triple.pure fun c hc => hc.1

theorem writeByteToFlash_refused (s : Record) {bs : List Byte} (hbs : bs.length = s.size) :
    Triple (Refusing m) (writeByteToFlash s.addr bs) (fun _ => Refusing m) (Refusing m) := by
  obtain ⟨-, h1, h2⟩ := s.in_sector
  unfold writeByteToFlash
  split_ifs
  · exact Triple.pure fun c hc => hc
  · exact programBytes_refused fun k hk => isFlashAddress_of_lt (by omega) (by omega)

theorem writes_refused {w : Record → List Byte} (hw : ∀ s, (w s).length = s.size) :
    Triple (Refusing m) (writes w) (fun _ => Refusing m) (Refusing m) :=
  (writeByteToFlash_refused .setup (hw .setup)).bind fun _ =>
    (writeByteToFlash_refused .freq (hw .freq)).bind fun _ =>
      (writeByteToFlash_refused .server (hw .server)).bind fun _ => Triple.pure fun _ hc => hc

end

/-! ## Behind the erase -/

/-- The addresses of a record. -/
def recordAddrs (s : Record) : List ℕ := List.range' s.addr s.size

/-- The addresses in the order in which `setSecret_1` programs them. -/
def saveAddrs : List ℕ := recordAddrs .setup ++ recordAddrs .freq ++ recordAddrs .server

/-- The bytes of the records that were programmed are those of `w`, the others are
    erased. -/
def Consistent (w : Record → List Byte) (c : Chip) : Prop :=
  ∀ s : Record, ∀ k < s.size,
    c.mem (s.addr + k) = if s.addr + k ∈ c.programmed then (w s).getD k 0 else 0xFF

/-- An erase comes first. -/
theorem consistent_erase (w : Record → List Byte) (c : Chip) : Consistent w (c.erase 1) := by
  intro s k hk
  obtain ⟨-, h1, h2⟩ := s.in_sector
  rw [if_neg (show s.addr + k ∉ (c.erase 1).programmed from List.not_mem_nil)]
  show Nor.erase c.mem 0x08004000 0x4000 (s.addr + k) = 0xFF
  exact erase_of_mem ⟨by omega, by omega⟩

/-- A place in the sector belongs to one record only. -/
theorem Record.addr_add_inj {s t : Record} {k j : ℕ} (hk : k < s.size) (hj : j < t.size)
    (h : t.addr + j = s.addr + k) : t = s ∧ j = k := by
  have hst : t = s := by
    by_contra hne
    rcases Record.disjoint hne with hlt | hlt <;> omega
  subst hst
  exact ⟨rfl, by omega⟩

theorem Consistent.program {w : Record → List Byte} {c : Chip} (h : Consistent w c)
    {s : Record} {k : ℕ} (hk : k < s.size) :
    Consistent w (c.program (s.addr + k) ((w s).getD k 0)) := by
  intro t j hj
  have hold := h t j hj
  show Nor.program c.mem (s.addr + k) ((w s).getD k 0) (t.addr + j) =
    if t.addr + j ∈ (s.addr + k) :: c.programmed then (w t).getD j 0 else 0xFF
  by_cases heq : t.addr + j = s.addr + k
  · obtain ⟨rfl, rfl⟩ := Record.addr_add_inj hk hj heq
    rw [if_pos List.mem_cons_self, Nor.program, Function.update_self, hold]
    split_ifs
    · -- programmed for the second time
      exact BitVec.and_self
    · exact and_erased _
  · rw [Nor.program, Function.update_of_ne heq, hold]
    simp only [List.mem_cons, heq, false_or]

section

variable {w : Record → List Byte}

/-- What holds while the records are written: no more than `done` was programmed, and
    all of it unless an error flag is set. -/
structure Saving (w : Record → List Byte) (done : List ℕ) (c : Chip) : Prop where
  consistent : Consistent w c
  started : c.programmed.reverse <+: saveAddrs
  all : c.Complete → c.programmed.reverse = done

/-- What a power cut leaves. -/
def Stopped (w : Record → List Byte) (c : Chip) : Prop :=
  Consistent w c ∧ c.programmed.reverse <+: saveAddrs

theorem Saving.stopped {done : List ℕ} {c : Chip} (h : Saving w done c) : Stopped w c :=
  ⟨h.consistent, h.started⟩

/-- With an error flag it does not matter how much was to be programmed. -/
theorem Saving.of_not_complete {done done' : List ℕ} {c : Chip} (h : Saving w done c)
    (hnot : ¬ c.Complete) : Saving w done' c :=
  ⟨h.consistent, h.started, fun hcomplete => absurd hcomplete hnot⟩

theorem Saving.start {done rest : List ℕ} {s : Record} {k : ℕ} {c : Chip} (h : Saving w done c)
    (hcomplete : c.Complete) (hk : k < s.size)
    (haddrs : done ++ (s.addr + k) :: rest = saveAddrs) :
    Saving w (done ++ [s.addr + k]) (c.start (Chip.program (s.addr + k) ((w s).getD k 0))) := by
  cases hfailure : c.failure 0 with
  | none =>
    have hprogrammed : ((s.addr + k) :: c.programmed).reverse = done ++ [s.addr + k] := by
      rw [List.reverse_cons, h.all hcomplete]
    rw [Chip.start_of_none hfailure]
    refine ⟨h.consistent.program hk, ?_, fun _ => hprogrammed⟩
    show ((s.addr + k) :: c.programmed).reverse <+: saveAddrs
    rw [hprogrammed, ← haddrs]
    exact ⟨rest, (List.append_cons ..).symm⟩
  | some e =>
    have hdone : Saving w done (c.start (Chip.program (s.addr + k) ((w s).getD k 0))) := by
      rw [Chip.start_of_some hfailure]
      exact ⟨h.consistent, h.started, fun _ => h.all hcomplete⟩
    exact hdone.of_not_complete (Chip.not_complete_start hfailure)

theorem FLASH_ProgramByte_triple {done rest : List ℕ} {s : Record} {k : ℕ} (hk : k < s.size)
    (haddrs : done ++ (s.addr + k) :: rest = saveAddrs) :
    Triple (Saving w done) (FLASH_ProgramByte (s.addr + k) ((w s).getD k 0))
      (fun status c => Saving w (done ++ [s.addr + k]) c ∧ (status ≠ .complete → ¬ c.Complete))
      (Stopped w) := by
  obtain ⟨-, h1, h2⟩ := s.in_sector
  apply Triple.bind (Q := fun _ => Saving w done)
  · exact Triple.assert (isFlashAddress_of_lt (by omega) (by omega)) fun c hc => hc
  intro _
  apply FLASH_operation_triple
  · intro c hc hnot
    exact ⟨hc.of_not_complete hnot, fun hstatus => hstatus⟩
  · intro c hc hcomplete
    exact ⟨hc.start hcomplete hk haddrs, fun hstatus => hstatus⟩
  · intro c hc
    exact hc.stopped

theorem programBytes_triple {done rest : List ℕ} {s : Record} {k : ℕ} {data : List Byte}
    (hdata : (w s).drop k = data) (hw : (w s).length = s.size)
    (haddrs : done ++ List.range' (s.addr + k) data.length ++ rest = saveAddrs) :
    Triple (Saving w done) (programBytes (s.addr + k) data)
      (fun _ => Saving w (done ++ List.range' (s.addr + k) data.length)) (Stopped w) := by
  induction data generalizing k done with
  | nil =>
    apply Triple.pure
    intro c hc
    simpa using hc
  | cons b data ih =>
    have hk : k < (w s).length := by
      by_contra hle
      rw [List.drop_eq_nil_of_le (Nat.le_of_not_lt hle)] at hdata
      cases hdata
    rw [List.drop_eq_getElem_cons hk] at hdata
    obtain ⟨rfl, hrest⟩ := List.cons.inj hdata
    rw [List.length_cons, List.range'_succ, List.append_cons] at haddrs ⊢
    have haddr : done ++ (s.addr + k) :: (List.range' (s.addr + k + 1) data.length ++ rest) =
        saveAddrs := by
      rw [List.append_cons, ← List.append_assoc]
      exact haddrs
    rw [← List.getD_eq_getElem (w s) 0 hk]
    apply Triple.bind (FLASH_ProgramByte_triple (hw ▸ hk) haddr)
    intro status
    by_cases hstatus : status = .complete
    · rw [if_pos hstatus]
      exact (ih hrest haddrs).conseq (fun c hc => hc.1) (fun _ _ hc => hc) fun _ hc => hc
    · rw [if_neg hstatus]
      exact Triple.pure fun c hc => hc.1.of_not_complete (hc.2 hstatus)

theorem writeByteToFlash_triple {done rest : List ℕ} (s : Record) (hw : (w s).length = s.size)
    (haddrs : done ++ recordAddrs s ++ rest = saveAddrs) :
    Triple (Saving w done) (writeByteToFlash s.addr (w s))
      (fun _ => Saving w (done ++ recordAddrs s)) (Stopped w) := by
  have hne : ¬ (s.addr = 0 ∨ w s = []) := by
    rintro (h | h)
    · cases s <;> cases h
    · rw [h] at hw
      cases s <;> cases hw
  unfold writeByteToFlash
  rw [if_neg hne]
  unfold recordAddrs at haddrs ⊢
  rw [← hw] at haddrs ⊢
  exact programBytes_triple (k := 0) rfl hw haddrs

theorem writes_triple (hw : ∀ s, (w s).length = s.size) :
    Triple (Saving w []) (writes w) (fun _ => Saving w saveAddrs) (Stopped w) := by
  have hsetup : [] ++ recordAddrs .setup ++ (recordAddrs .freq ++ recordAddrs .server) =
      saveAddrs := (List.append_assoc ..).symm
  have hserver : [] ++ recordAddrs .setup ++ recordAddrs .freq ++ recordAddrs .server ++ [] =
      saveAddrs := List.append_nil _
  apply Triple.bind (writeByteToFlash_triple .setup (hw .setup) hsetup)
  intro _
  apply Triple.bind (writeByteToFlash_triple .freq (hw .freq) rfl)
  intro _
  apply Triple.bind (writeByteToFlash_triple .server (hw .server) hserver)
  intro _
  exact Triple.pure fun c hc => hc

end

/-! ## Without failures -/

/-- No error flag is set, and no operation to come fails. -/
def Chip.Sound (c : Chip) : Prop := c.Complete ∧ ∀ n, c.failure n = none

theorem Chip.Sound.start {f : Chip → Chip} {c : Chip} (h : c.Sound)
    (hf : (f c).sr = c.sr) : (c.start f).Sound := by
  rw [Chip.start_of_none (h.2 0)]
  refine ⟨?_, fun n => h.2 (n + 1)⟩
  show FLASH_WaitForLastOperation (f c).sr = .complete
  rw [hf]
  exact h.1

theorem programBytes_completes {a : ℕ} {data : List Byte} {c : Chip}
    (hflash : ∀ k < data.length, isFlashAddress (a + k) = true) (hc : c.Sound) :
    ∃ c', programBytes a data c none = .done .rtEok c' none ∧
      c'.mem = programs c.mem a data ∧ c'.Sound := by
  induction data generalizing a c with
  | nil => exact ⟨c, rfl, rfl, hc⟩
  | cons b data ih =>
    have h0 : isFlashAddress a = true := hflash 0 (Nat.succ_pos _)
    have hsound : (c.start (Chip.program a b)).Sound := hc.start rfl
    have hbyte : FLASH_ProgramByte a b c none =
        .done .complete (c.start (Chip.program a b)) none := by
      have hassert : Prog.assert (isFlashAddress a) c none = .done () c none := if_pos h0
      have hstatus : FLASH_WaitForLastOperation (c.start (Chip.program a b)).sr = .complete :=
        hsound.1
      unfold FLASH_ProgramByte
      rw [Prog.bind_of_done hassert, FLASH_operation_done hc.1 rfl, hstatus]
    have hmem : (c.start (Chip.program a b)).mem = Nor.program c.mem a b := by
      rw [Chip.start_of_none (hc.2 0)]
      rfl
    have hrest : ∀ k < data.length, isFlashAddress (a + 1 + k) = true := by
      intro k hk
      rw [Nat.add_assoc, Nat.add_comm 1]
      exact hflash (k + 1) (Nat.succ_lt_succ hk)
    obtain ⟨c', hrun, hmem', hc'⟩ := ih hrest hsound
    refine ⟨c', ?_, ?_, hc'⟩
    · rw [programBytes, Prog.bind_of_done hbyte, if_pos rfl]
      exact hrun
    · rw [hmem', hmem]
      rfl

theorem writeByteToFlash_completes (s : Record) {bs : List Byte} (hbs : bs.length = s.size)
    {c : Chip} (hc : c.Sound) :
    ∃ c', writeByteToFlash s.addr bs c none = .done .rtEok c' none ∧
      c'.mem = programs c.mem s.addr bs ∧ c'.Sound := by
  obtain ⟨-, h1, h2⟩ := s.in_sector
  have hne : ¬ (s.addr = 0 ∨ bs = []) := by
    rintro (h | rfl)
    · omega
    · cases s <;> cases hbs
  unfold writeByteToFlash
  rw [if_neg hne]
  exact programBytes_completes (fun k hk => isFlashAddress_of_lt (by omega) (by omega)) hc

/-- Without failures and power cuts a save is the one of `Abox.Flash.Secret`. -/
theorem setSecret_1_completes {c : Chip} (hc : c.Sound) {writeAddr : ℕ}
    (h : STMFLASH_GetFlashSector writeAddr = 1) (pBuffer : List Byte) :
    ∃ c', setSecret_1 writeAddr pBuffer c none = .done () c' none ∧
      Flash.setSecret_1 c.mem writeAddr pBuffer = some c'.mem := by
  have hw := length_written c.mem writeAddr pBuffer
  have hsound : (c.start (Chip.erase 1)).Sound := hc.start rfl
  have hmem : (c.start (Chip.erase 1)).mem = Flash.FLASH_EraseSector c.mem 1 := by
    rw [Chip.start_of_none (hc.2 0)]
    rfl
  have herase : FLASH_EraseSector 1 c none = .done _ (c.start (Chip.erase 1)) none :=
    FLASH_operation_done hc.1 rfl
  obtain ⟨c1, hrun1, hmem1, hc1⟩ := writeByteToFlash_completes .setup (hw .setup) hsound
  obtain ⟨c2, hrun2, hmem2, hc2⟩ := writeByteToFlash_completes .freq (hw .freq) hc1
  obtain ⟨c3, hrun3, hmem3, hc3⟩ := writeByteToFlash_completes .server (hw .server) hc2
  refine ⟨c3, ?_, ?_⟩
  · rw [setSecret_1_writes h, Prog.bind_of_done herase]
    unfold writes
    exact (Prog.bind_of_done hrun1).trans
      ((Prog.bind_of_done hrun2).trans (Prog.bind_of_done hrun3))
  · rw [setSecret_1_rewritten h, hmem3, hmem2, hmem1, hmem]
    rfl

/-! ## What is left -/

/-- What the record `s` should read as after `v` was saved as record `r`. -/
def saved (m : Mem) (r : Record) (v : Value r) (s : Record) : List Byte :=
  if s = r then v.bytes else s.load m

theorem written_eq_saved (m : Mem) (r : Record) (v : Value r) :
    written m r.addr v.bytes = saved m r v := by
  funext s
  unfold saved
  split_ifs with h
  · subst h
    exact written_self m s v
  · exact written_of_ne v h

theorem length_saved (m : Mem) (r : Record) (v : Value r) (s : Record) :
    (saved m r v s).length = s.size := by
  rw [← written_eq_saved]
  exact length_written ..

theorem load_eq_iff {m : Mem} {s : Record} {bs : List Byte} (hbs : bs.length = s.size) :
    s.load m = bs ↔ ∀ k < s.size, m (s.addr + k) = bs.getD k 0 := by
  unfold Record.load Flash.STMFLASH_ReadMoreByte
  rw [← hbs, read_eq_iff]
  constructor
  · intro h k hk
    rw [List.getD_eq_getElem _ _ hk]
    exact h k hk
  · intro h k hk
    rw [← List.getD_eq_getElem bs 0 hk]
    exact h k hk

/-- Behind the erase a record reads as it should exactly if what was not programmed of
    it is `0xFF`. -/
theorem Consistent.load_iff {w : Record → List Byte} {c : Chip} (h : Consistent w c) {s : Record}
    (hw : (w s).length = s.size) :
    s.load c.mem = w s ↔
      ∀ k < s.size, s.addr + k ∉ c.programmed → (w s).getD k 0 = 0xFF := by
  rw [load_eq_iff hw]
  refine forall₂_congr fun k hk => ?_
  rw [h s k hk]
  split_ifs with hprogrammed
  · exact iff_of_true rfl (absurd hprogrammed)
  · exact ⟨fun hff _ => hff.symm, fun hff => (hff hprogrammed).symm⟩

/-- What a program that never hangs leaves, wherever it stops. -/
theorem leaves_of_triple {P C : Chip → Prop} {p : Prog Chip Unit}
    (h : Triple P p (fun _ => C) C) {c : Chip} (hc : P c) (power : Option ℕ) :
    ∃ c', Leaves c' (p c power) ∧ C c' := by
  have hmeets := h c power hc
  cases hrun : p c power with
  | done a c' power' =>
    rw [hrun] at hmeets
    exact ⟨c', rfl, hmeets.1⟩
  | cut c' =>
    rw [hrun] at hmeets
    exact ⟨c', rfl, hmeets.1⟩
  | hang =>
    rw [hrun] at hmeets
    exact hmeets.elim

/-- The erase is carried out: no error flag is set, it does not fail, and the power
    lasts for it. -/
structure EraseDone (c : Chip) (power : Option ℕ) : Prop where
  complete : c.Complete
  failure : c.failure 0 = none
  power : power ≠ some 0

/-- One operation, if the power lasts for it. -/
theorem op_of_ne_zero (f : Chip → Chip) (c : Chip) {power : Option ℕ} (h : power ≠ some 0) :
    ∃ power', Prog.op f c power = .done () (f c) power' := by
  cases power with
  | none => exact ⟨none, rfl⟩
  | some n =>
    cases n with
    | zero => exact absurd rfl h
    | succ n => exact ⟨some n, rfl⟩

/-- If the erase is not carried out, nothing else is. -/
theorem leaves_not_erased {c : Chip} {power : Option ℕ} (h : ¬ EraseDone c power) (r : Record)
    (v : Value r) :
    ∃ c', Leaves c' (setSecret_1 r.addr v.bytes c power) ∧ c'.mem = c.mem := by
  rw [setSecret_1_writes r.in_sector.1, written_eq_saved]
  have hwrites := writes_refused (m := c.mem) (length_saved c.mem r v)
  by_cases hcomplete : c.Complete
  · by_cases hpower : power = some 0
    · subst hpower
      have hget : Prog.get (fun c : Chip => FLASH_WaitForLastOperation c.sr) c (some 0) =
          .done .complete c (some 0) := congrArg (Outcome.done · c (some 0)) hcomplete
      refine ⟨c, ?_, rfl⟩
      show Leaves c (Prog.bind (FLASH_operation _) _ c (some 0))
      unfold Prog.bind FLASH_operation
      rw [Prog.bind_of_done hget]
      rfl
    · -- the erase fails
      cases hfailure : c.failure 0 with
      | none => exact absurd ⟨hcomplete, hfailure, hpower⟩ h
      | some e =>
        obtain ⟨power', hop⟩ := op_of_ne_zero (Chip.start (Chip.erase 1)) c hpower
        have herase : FLASH_EraseSector 1 c power = _ := FLASH_operation_done hcomplete hop
        have hrefusing : Refusing c.mem (c.start (Chip.erase 1)) := by
          refine ⟨?_, Chip.not_complete_start hfailure⟩
          rw [Chip.start_of_some hfailure]
        obtain ⟨c', hleaves, hmem, -⟩ := leaves_of_triple hwrites hrefusing power'
        rw [Prog.bind_of_done herase]
        exact ⟨c', hleaves, hmem⟩
  · -- it is refused
    have herase : FLASH_EraseSector 1 c power = _ := FLASH_operation_refused hcomplete power
    obtain ⟨c', hleaves, hmem, -⟩ := leaves_of_triple hwrites ⟨rfl, hcomplete⟩ power
    rw [Prog.bind_of_done herase]
    exact ⟨c', hleaves, hmem⟩

/-- From the erase on, a save leaves what `Stopped` says. -/
theorem leaves_erased {c : Chip} {power : Option ℕ} (h : EraseDone c power) (r : Record)
    (v : Value r) :
    ∃ c', Leaves c' (setSecret_1 r.addr v.bytes c power) ∧ Stopped (saved c.mem r v) c' := by
  obtain ⟨power', hop⟩ := op_of_ne_zero (Chip.start (Chip.erase 1)) c h.power
  have herase : FLASH_EraseSector 1 c power = _ := FLASH_operation_done h.complete hop
  have hsaving : Saving (saved c.mem r v) [] (c.start (Chip.erase 1)) := by
    rw [Chip.start_of_none h.failure]
    exact ⟨consistent_erase _ c, List.nil_prefix, fun _ => rfl⟩
  have hwrites : Triple (Saving (saved c.mem r v) []) (writes (saved c.mem r v))
      (fun _ => Stopped (saved c.mem r v)) (Stopped (saved c.mem r v)) :=
    (writes_triple (length_saved c.mem r v)).conseq (fun _ hc => hc) (fun _ _ hc => hc.stopped)
      fun _ hc => hc
  rw [setSecret_1_writes r.in_sector.1, written_eq_saved, Prog.bind_of_done herase]
  exact leaves_of_triple hwrites hsaving power'

/-- Wherever a save of `v` as record `r` stops. If the erase is not carried out, because
    the power is cut before, because it fails or because an earlier operation has failed,
    every record is as before. Otherwise every record reads as it should, the others as
    before and `r` as `v`, exactly if what was not programmed of it is `0xFF`; and what
    was programmed is the first part of the three records. If nothing fails, every record
    reads as it should. -/
theorem save_interrupted (m : Mem) (sr : BitVec 32) (failure : ℕ → Option Failure)
    (power : Option ℕ) (r : Record) (v : Value r) :
    ∃ c, Leaves c (setSecret_1 r.addr v.bytes (Chip.init m sr failure) power) ∧
      (¬ EraseDone (Chip.init m sr failure) power → ∀ s : Record, s.load c.mem = s.load m) ∧
      (EraseDone (Chip.init m sr failure) power →
        c.programmed.reverse <+: saveAddrs ∧ ∀ s : Record, s.load c.mem = saved m r v s ↔
          ∀ k < s.size, s.addr + k ∉ c.programmed → (saved m r v s).getD k 0 = 0xFF) ∧
      (power = none → (Chip.init m sr failure).Sound → ∀ s : Record,
        s.load c.mem = saved m r v s) := by
  by_cases hdone : EraseDone (Chip.init m sr failure) power
  · obtain ⟨c, hleaves, hconsistent, hstarted⟩ := leaves_erased hdone r v
    refine ⟨c, hleaves, absurd hdone, fun _ => ⟨hstarted, fun s => ?_⟩, fun hnone hsound s => ?_⟩
    · exact hconsistent.load_iff (length_saved m r v s)
    · subst hnone
      obtain ⟨c', hrun, hsave⟩ := setSecret_1_completes hsound r.in_sector.1 v.bytes
      rw [hrun] at hleaves
      obtain rfl := hleaves
      rw [setSecret_1_rewritten r.in_sector.1] at hsave
      rw [← Option.some.inj hsave, load_rewritten (length_written _ _ _), written_eq_saved]
      rfl
  · obtain ⟨c, hleaves, hmem⟩ := leaves_not_erased hdone r v
    refine ⟨c, hleaves, fun _ s => ?_, fun h => absurd h hdone, fun hnone hsound => ?_⟩
    · rw [hmem]
      rfl
    · subst hnone
      exact absurd ⟨hsound.1, hsound.2 0, nofun⟩ hdone

/-- The contents of a flash in which everything is zero. -/
def zeroMem : Mem := fun _ => 0

/-- The power is cut behind the erase of a save of the server information. The
    frequency information is lost. -/
theorem save_cut_after_erase :
    ∃ c, Leaves c (setSecret_1 Record.server.addr (List.replicate 228 1)
        (Chip.init zeroMem 0 fun _ => none) (some 1)) ∧
      Record.freq.load zeroMem = List.replicate 64 0 ∧
      Record.freq.load c.mem = List.replicate 64 0xFF := by
  refine ⟨(Chip.init zeroMem 0 fun _ => none).start (Chip.erase 1), ?_, ?_, ?_⟩
  · rw [setSecret_1_writes Record.server.in_sector.1]
    rfl
  · decide +kernel
  · decide +kernel

end Abox.Flash.Interrupted
