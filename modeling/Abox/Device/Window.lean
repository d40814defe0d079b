import Abox.Device.Atomic

/-!
# The length word of an update

The length is programmed byte by byte behind the last chunk, and the next boot believes
any length that is not erased.

* `length_window`: every successful update has a moment in which a power failure leaves a
  length of more than `0xFF000000` for the boot to check.
-/

namespace Abox.Device

open Nor PowerCut Flash Update Boot

/-! ## Counting the operations -/

theorem FLASH_ProgramByte_metered (address : ℕ) (data : Byte) :
    Metered (FLASH_ProgramByte address data) :=
  (Metered.check _).bind fun _ => Metered.op _

theorem programBytes_metered (writeAddr : ℕ) (data : List Byte) :
    Metered (programBytes writeAddr data) := by
  induction data generalizing writeAddr with
  | nil => exact Metered.pure ()
  | cons b data ih => exact (FLASH_ProgramByte_metered writeAddr b).bind fun _ => ih (writeAddr + 1)

theorem writeByteToFlash_metered (writeAddr : ℕ) (data : List Byte) :
    Metered (writeByteToFlash writeAddr data) :=
  Metered.ite (Metered.pure _) ((programBytes_metered writeAddr data).bind fun _ => Metered.pure _)

theorem timeout_metered : Metered timeout := by
  refine (Metered.get _).bind fun err => Metered.ite (Metered.pure _) ?_
  exact (Metered.record _).bind fun _ => (Metered.record _).bind fun _ => Metered.pure _

theorem written_metered (cmd12 : TcmdInfo) : Metered (written cmd12) := by
  refine (Metered.get _).bind fun flen => Metered.ite ?_ ?_
  · refine (writeByteToFlash_metered _ _).zoom.bind fun _ => (Metered.get _).bind fun _ => ?_
    exact Metered.ite ((Metered.record _).bind fun _ => Metered.pure _) (Metered.pure _)
  · exact (Metered.record _).bind fun _ => (Metered.record _).bind fun _ => Metered.pure _

theorem recvPass_metered (cmd12 : TcmdInfo) (msg : Option (List Byte)) :
    Metered (recvPass cmd12 msg) := by
  cases msg with
  | none => exact timeout_metered
  | some rev =>
    refine (Metered.record _).bind fun _ => (Metered.get _).bind fun s => ?_
    refine Metered.ite (Metered.ite ?_ timeout_metered) (Metered.pure _)
    exact (writeByteToFlash_metered _ _).zoom.bind fun _ =>
      (Metered.record _).bind fun _ => written_metered cmd12

/-! ## The moment before the last byte of the length -/

/-- The power fails before the fourth byte of the length. -/
theorem written_cut {cmd12 : TcmdInfo} {s : State} (h : s.cmd11.flen = cmd12.flen) :
    written cmd12 s (some 3) = .cut { s with
      mem := programs s.mem updataAppAddr ((Layout.word.encode cmd12.flen).take 3) } := by
  unfold written
  rw [Prog.get_bind, if_pos h, h]
  rfl

/-- Three bytes of a length over an erased word. -/
theorem readWord_three {m : Mem} {a : ℕ} {w : BitVec 32} (h : Erased m a 4)
    (hw : w.toNat < 2 ^ 24) :
    (STMFLASH_ReadWord (programs m a ((Layout.word.encode w).take 3)) a).toNat =
      0xFF000000 + w.toNat := by
  have hlen : ((Layout.word.encode w).take 3).length = 3 := rfl
  have hbyte : ∀ i (hi : i < ((Layout.word.encode w).take 3).length),
      programs m a ((Layout.word.encode w).take 3) (a + i) =
        ((Layout.word.encode w).take 3)[i] := by
    intro i hi
    have hlt : i < 4 := by omega
    rw [programs_of_lt hi, h _ (by omega) (by omega), and_erased]
  have h0 : programs m a ((Layout.word.encode w).take 3) a = w.extractLsb' 0 8 :=
    hbyte 0 (by omega)
  have h1 : programs m a ((Layout.word.encode w).take 3) (a + 1) = w.extractLsb' 8 8 :=
    hbyte 1 (by omega)
  have h2 : programs m a ((Layout.word.encode w).take 3) (a + 2) = w.extractLsb' 16 8 :=
    hbyte 2 (by omega)
  have h3 : programs m a ((Layout.word.encode w).take 3) (a + 3) = 0xFF := by
    rw [programs_of_disjoint (Or.inr (le_refl (a + 3)))]
    exact h _ (by omega) (by omega)
  rw [readWord_eq, h0, h1, h2, h3]
  simp only [BitVec.toNat_append, BitVec.extractLsb'_toNat, Nat.shiftRight_zero]
  -- the four bytes do not overlap
  rw [← Nat.shiftLeft_add_eq_or_of_lt (Nat.mod_lt _ (by decide)),
    ← Nat.shiftLeft_add_eq_or_of_lt (Nat.mod_lt _ (by decide)),
    ← Nat.shiftLeft_add_eq_or_of_lt (by simp only [Nat.shiftLeft_eq]; omega)]
  have hff : (0xFF : BitVec 8).toNat = 0xFF := rfl
  simp only [Nat.shiftLeft_eq, Nat.shiftRight_eq_div_pow, hff]
  omega

/-- In the last pass of a successful update. -/
theorem pass_window {cmd12 : TcmdInfo} {base : Mem} {img : List Byte} {s s' : State}
    {msg : Option (List Byte)} (hbase : Erased base updataAppAddr 4) (hs : Fresh base img s)
    (h : s.recvPass cmd12 msg = .ended 1 s') :
    ∃ n t, recvPass cmd12 msg s (some n) = .cut t ∧
      stagedLen t.mem = 0xFF000000 + cmd12.flen.toNat := by
  obtain ⟨rev, r, rfl, hacc, hwrite, hend, -⟩ := ended_one h
  have hfresh := fresh_of_write hs hacc hwrite
  have hlen : cmd12.flen.toNat < 2 ^ 24 := by
    have hbound := hfresh.bound
    have hflen := hfresh.flen
    have hbase : updataAppAddr = 0x080A0000 := rfl
    rw [← hend]
    show (s.advance rev r.2).cmd11.flen.toNat < 2 ^ 24
    omega
  have hchunk := (inFlash_refines (writeByteToFlash_refines s.startAddr.toNat (Update.chunk rev))
    (State.looking s rev) none).done (a := r.1) (t := { State.looking s rev with mem := r.2 })
    (congrArg (Option.map _) hwrite)
  let t : State := { s.advance rev r.2 with
    mem := programs r.2 updataAppAddr ((Layout.word.encode cmd12.flen).take 3) }
  have hcut : behindChunk cmd12 rev { State.looking s rev with mem := r.2 } (some 3) = .cut t :=
    written_cut (s := s.advance rev r.2) hend
  obtain ⟨n, hn⟩ := (writeByteToFlash_metered _ _).zoom.cut_bind
    (k := fun _ => behindChunk cmd12 rev) hchunk hcut
  refine ⟨n, t, ?_, ?_⟩
  · show received cmd12 rev s (some n) = _
    rw [received_eq, if_pos hacc.1, if_pos hacc.2]
    exact hn
  · have herased : Nor.Erased r.2 updataAppAddr 4 := by
      have hmem : r.2 = programs base (updataAppAddr + 4) (img ++ Update.chunk rev) := hfresh.mem
      rw [hmem]
      exact Nor.Erased.programs hbase (Or.inr le_rfl)
    exact readWord_three herased hlen

/-- In the loop of a successful update. -/
theorem loop_window {cmd12 : TcmdInfo} {base : Mem} {image img : List Byte} {s s' : State}
    {msgs : List (Option (List Byte))} (hbase : Erased base updataAppAddr 4)
    (hs : Download base cmd12.flen image img s msgs)
    (h : s.recvLoop cmd12 msgs = .returned 1 s') :
    ∃ n t, recvLoop cmd12 msgs s (some n) = .cut t ∧
      stagedLen t.mem = 0xFF000000 + cmd12.flen.toNat := by
  induction msgs generalizing s img with
  | nil => cases h
  | cons msg msgs ih =>
    rw [State.recvLoop] at h
    have hrun := recvPass_refines cmd12 msg s none
    cases hpass : s.recvPass cmd12 msg with
    | again s1 =>
      rw [hpass] at h
      obtain ⟨img', hs'⟩ := hs.again hpass
      obtain ⟨n, t, hcut, hlen⟩ := ih hs' h
      have hdone := hrun.done (a := .again) (t := s1) (by beta_reduce; rw [hpass]; rfl)
      have hloop : ∃ n', recvLoop cmd12 (msg :: msgs) s (some n') = .cut t := by
        unfold recvLoop
        exact (recvPass_metered cmd12 msg).cut_bind hdone hcut
      obtain ⟨n', hcut'⟩ := hloop
      exact ⟨n', t, hcut', hlen⟩
    | ended ret s1 =>
      rw [hpass] at h
      obtain ⟨rfl, -⟩ := finish_returned h
      obtain ⟨n, t, hcut, hlen⟩ := pass_window hbase hs.fresh hpass
      refine ⟨n, t, ?_, hlen⟩
      unfold recvLoop
      show Prog.bind _ _ s (some n) = _
      unfold Prog.bind
      rw [hcut]
    | hang =>
      rw [hpass] at h
      cases h

/-- Over an erased length, an accepted request leads into the receiving loop. -/
theorem process_run {d : Update.Device} {send rev : List Byte} {msgs : List (Option (List Byte))}
    (herased : STMFLASH_ReadWord d.mem updataAppAddr = 0xffffffff) (hreq : AcceptsRequest rev)
    (power : Option ℕ) : process rev msgs (started d send rev) power =
      recvLoop (TcmdInfo.ofBytes (rev.drop sizeofStPackCmd)) msgs (start d send rev) power := by
  have hresume : inFlash (resume (TcmdInfo.ofBytes (rev.drop sizeofStPackCmd)))
      (started d send rev) power = .done 0 (started d send rev) power := by
    unfold inFlash Prog.zoom resume
    rw [Prog.get_bind, if_pos (show STMFLASH_ReadWord (started d send rev).mem _ = _ from herased)]
    rfl
  have hstart : start d send rev = State.sendPack { started d send rev with
      cmd11 := { (started d send rev).cmd11 with flen := 0 }
      startAddr := (started d send rev).startAddr + 4 + 0 } := by
    unfold start
    dsimp only
    rw [resume_of_erased _ herased]
    rfl
  unfold process
  dsimp only
  rw [if_neg hreq, Prog.bind_of_done hresume, hstart]
  rfl

/-- Every update over an erased length that succeeds has a moment in which a power failure
    leaves a length far behind the flash, for the next boot to check. -/
theorem length_window {d : Update.Device} {send rev : List Byte}
    {msgs : List (Option (List Byte))} {t : State}
    (herased : STMFLASH_ReadWord d.mem updataAppAddr = 0xffffffff)
    (h : process_DEV_USER_RUPDATA d send rev msgs = .returned 1 t) :
    ∃ n u, process rev msgs (started d send rev) (some n) = .cut u ∧
      stagedLen u.mem = 0xFF000000 + (announced rev).toNat ∧ ¬ ReadsFlash u.mem := by
  have hreq : AcceptsRequest rev := by
    intro hver
    unfold process_DEV_USER_RUPDATA at h
    dsimp only at h
    rw [if_pos hver] at h
    cases h
  have hdownload :
      Download d.mem (announced rev) (programOf d rev msgs) [] (start d send rev) msgs :=
    download_start send msgs herased
  have hloop := h
  rw [process_eq_recvLoop hreq] at hloop
  obtain ⟨hlen, hbound, -⟩ := recvLoop_fresh hdownload.fresh hloop
  obtain ⟨n, u, hcut, hu⟩ := loop_window (erased_of_readWord herased) hdownload hloop
  have hbase : updataAppAddr = 0x080A0000 := rfl
  have hsmall : (announced rev).toNat ≤ 0x5FFFB := by
    show (TcmdInfo.ofBytes (rev.drop sizeofStPackCmd)).flen.toNat ≤ _
    omega
  refine ⟨n, u, by rw [process_run herased hreq]; exact hcut, hu, ?_⟩
  rintro (hword | hread)
  · have hff : stagedLen u.mem = 0xffffffff := by rw [stagedLen, hword]; rfl
    rw [hu] at hff
    change 0xFF000000 + (announced rev).toNat = _ at hff
    omega
  · rw [hu] at hread
    have hend : flashEnd = 0x08100000 := rfl
    rw [hend] at hread
    omega

/-- An update with four bytes, cut in its window. -/
theorem length_window_four :
    ∃ n u, process (exampleRequest 4) [some (exampleMessage 0 [0xFF, 0xFF, 0xFF, 0xFF])]
        (started (exampleDevice fun _ => 0xFF) (List.replicate 1024 0) (exampleRequest 4))
        (some n) = .cut u ∧ ¬ ReadsFlash u.mem := by
  obtain ⟨t, hrun, -⟩ := Result.eq_of_report (show Result.report (process_DEV_USER_RUPDATA
    (exampleDevice fun _ => 0xFF) (List.replicate 1024 0) (exampleRequest 4)
    [some (exampleMessage 0 [0xFF, 0xFF, 0xFF, 0xFF])]) = some (1, 4) by decide +kernel)
  obtain ⟨n, u, hcut, -, hread⟩ := length_window (readWord_of_erased fun _ _ _ => rfl) hrun
  exact ⟨n, u, hcut, hread⟩

end Abox.Device
