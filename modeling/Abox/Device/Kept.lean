import Abox.Boot.Recovery
import Abox.Device.Rupdata

/-!
# What an update leaves alone

The bootloader in sector 0 and the sectors 2 to 8, with the application, are in
front of the staging area.

* `process_kept`: wherever a remote update ends, hangs or is cut, they are unchanged,
  if the length in the staging area is one that the flash can hold.
-/

namespace Abox.Device

open Nor PowerCut Flash Update Boot

/-- All that lies in front of the staging area, except sector 1, is the same. -/
def Kept (m m' : Mem) : Prop :=
  ∀ k, k < dataAddr ∨ (applicationAddress ≤ k ∧ k < updataAppAddr) → m' k = m k

theorem Kept.refl (m : Mem) : Kept m m := fun _ _ => rfl

theorem Kept.trans {m m' m'' : Mem} (h : Kept m m') (h' : Kept m' m'') : Kept m m'' :=
  fun k hk => (h' k hk).trans (h k hk)

/-- The application is in what is kept. -/
theorem Kept.appUnchanged {m m' : Mem} (h : Kept m m') : AppUnchanged m m' := by
  intro k hk
  have happ : applicationAddress = 0x08008000 := rfl
  have hsize : appSize = 0x58000 := rfl
  have hbase : updataAppAddr = 0x080A0000 := rfl
  exact h _ (Or.inr (by omega))

theorem kept_of_part {writeAddr : ℕ} {data : List Byte} {m m' : Mem}
    (h : WrittenPart writeAddr data m m') (ha : updataAppAddr ≤ writeAddr) : Kept m m' := by
  intro k hk
  have hdata : dataAddr ≤ updataAppAddr := by decide
  exact h.apply (Or.inl (by omega))

theorem kept_of_written {writeAddr : ℕ} {data : List Byte} {m m' : Mem} {e : RtErr}
    (h : Flash.writeByteToFlash m writeAddr data = some (e, m')) (ha : updataAppAddr ≤ writeAddr) :
    Kept m m' := by
  have hpos : 0 < updataAppAddr := by decide
  have hflash := writeByteToFlash_some h (by omega)
  have hpart : WrittenPart writeAddr data m m' := ⟨data.length, le_rfl, hflash.2, ?_⟩
  · exact kept_of_part hpart ha
  rw [List.take_length]
  exact hflash.1

theorem kept_of_erased {m m' : Mem} (h : SomeErased m m') : Kept m m' := by
  intro k hk
  have hdata : dataAddr ≤ updataAppAddr := by decide
  rcases h k with hsame | ⟨hge, -⟩
  · exact hsame
  · omega

theorem kept_of_cleared {m m' : Mem} (h : ClearedPart m m') : Kept m m' := by
  rcases h with rfl | ⟨-, h⟩
  · exact Kept.refl _
  · exact kept_of_erased h

theorem kept_of_sector1 {m m' : Mem} (h : Sector1Only m m') : Kept m m' := by
  intro k hk
  have hdata : dataAddr = 0x08004000 := rfl
  have happ : applicationAddress = 0x08008000 := rfl
  exact h k (by omega)

/-! ## The receiving loop -/

/-- The next chunk goes behind the length word. -/
def State.Behind (s : State) : Prop := updataAppAddr + 4 ≤ s.startAddr.toNat

/-- Behind a write that returns, the address has not wrapped. -/
theorem behind_of_write {a : BitVec 32} {data : List Byte} {m m' : Mem} {e : RtErr}
    (ha : updataAppAddr + 4 ≤ a.toNat)
    (h : Flash.writeByteToFlash m a.toNat data = some (e, m')) :
    (a + BitVec.ofNat 32 data.length).toNat = a.toNat + data.length := by
  have hflash := (writeByteToFlash_some h (by omega)).2
  have hlt := a.isLt
  rw [BitVec.toNat_add, BitVec.toNat_ofNat]
  by_cases hzero : data.length = 0
  · rw [hzero]
    omega
  · have hlast := hflash (data.length - 1) (by omega)
    have hend : a.toNat + (data.length - 1) < 0x1FFF7A0F := by
      unfold isFlashAddress at hlast
      simp only [Bool.or_eq_true, Bool.and_eq_true, decide_eq_true_eq] at hlast
      omega
    rw [Nat.mod_eq_of_lt (by omega), Nat.mod_eq_of_lt (by omega)]

/-- A chunk that is written leaves room in the address for the next one. -/
theorem behind_of_written {s : State} {rev : List Byte} {m : Mem} {e : RtErr}
    (hs : State.Behind s)
    (h : Flash.writeByteToFlash s.mem s.startAddr.toNat (chunk rev) = some (e, m)) :
    updataAppAddr + 4 ≤ (s.startAddr + chunkLen rev).toNat := by
  have hnext := behind_of_write hs h
  rw [length_chunk, BitVec.ofNat_toNat, BitVec.setWidth_eq] at hnext
  rw [hnext]
  exact le_trans hs (Nat.le_add_right ..)

theorem passLeft_kept {cmd12 : TcmdInfo} {s t : State} {msg : Option (List Byte)}
    (hs : State.Behind s) (h : PassLeft cmd12 s msg t) : Kept s.mem t.mem := by
  unfold State.Behind at hs
  cases h with
  | chunk _ _ hpart => exact kept_of_part hpart (by omega)
  | length _ _ hwrite _ hpart =>
    exact (kept_of_written hwrite (by omega)).trans (kept_of_part hpart le_rfl)

/-- Behind a chunk, the length word may be written. -/
theorem written_state {cmd12 : TcmdInfo} {s s' : State} (h : (s.written cmd12).state = some s') :
    s'.startAddr = s.startAddr ∧ (s'.mem = s.mem ∨ (s.cmd11.flen = cmd12.flen ∧
      s'.mem = programs s.mem updataAppAddr (Layout.word.encode cmd12.flen))) := by
  by_cases hend : s.cmd11.flen = cmd12.flen
  · rw [written_of_eq hend] at h
    dsimp only at h
    split_ifs at h
    · cases h
      exact ⟨rfl, Or.inr ⟨hend, rfl⟩⟩
    · cases h
      exact ⟨rfl, Or.inr ⟨hend, rfl⟩⟩
  · rw [written_of_ne hend] at h
    cases h
    exact ⟨rfl, Or.inl rfl⟩

theorem recvPass_kept {cmd12 : TcmdInfo} {s s' : State} {msg : Option (List Byte)}
    (hs : State.Behind s) (h : (s.recvPass cmd12 msg).state = some s') :
    Kept s.mem s'.mem ∧ State.Behind s' := by
  by_cases hacc : ∃ rev, msg = some rev ∧ s.Accepts rev
  · obtain ⟨rev, rfl, hacc⟩ := hacc
    rw [recvPass_chunk cmd12 hacc.1 hacc.2] at h
    cases hwrite : Flash.writeByteToFlash s.mem s.startAddr.toNat (chunk rev) with
    | none =>
      rw [hwrite] at h
      cases h
    | some r =>
      rw [hwrite] at h
      obtain ⟨hstart, hmem⟩ := written_state h
      have hchunk : Kept s.mem r.2 := kept_of_written hwrite (by unfold State.Behind at hs; omega)
      refine ⟨?_, ?_⟩
      · rcases hmem with hmem | ⟨-, hmem⟩
        · rw [hmem]
          exact hchunk
        · rw [hmem]
          exact hchunk.trans (kept_of_written (writeLength r.2 cmd12.flen) le_rfl)
      · unfold State.Behind
        rw [hstart]
        exact behind_of_written hs hwrite
  · push Not at hacc
    obtain ⟨t, ht, hstart, -, hmem⟩ := recvPass_of_other cmd12 hacc
    obtain rfl := Option.some.inj (ht.symm.trans h)
    rw [hmem]
    refine ⟨Kept.refl _, ?_⟩
    unfold State.Behind
    rw [hstart]
    exact hs

theorem finishLeft_kept {ret : ℤ} {m : Mem} {t : State} (h : FinishLeft ret m t) :
    Kept m t.mem := by
  cases h with
  | saved _ h => exact kept_of_sector1 h
  | cleared _ h => exact kept_of_cleared h

theorem finish_kept {cmd12 : TcmdInfo} {s t : State} {ret ret' : ℤ}
    (h : s.finish cmd12 ret = .returned ret' t) : Kept s.mem t.mem := by
  unfold State.finish at h
  dsimp only at h
  split_ifs at h
  · cases hsave : Update.SaveSetup s.mem (setSetupVer s.sysSetup 0) with
    | none =>
      rw [hsave] at h
      cases h
    | some m =>
      rw [hsave] at h
      cases h
      exact kept_of_sector1 (sector1Only_SaveSetup hsave)
  · cases h
    exact Kept.refl _
  · cases h
    exact kept_of_erased (someErased_clearSaveDataSector _)

/-- What a power failure in the receiving loop leaves. -/
theorem loopLeft_kept {cmd12 : TcmdInfo} {s t : State} {msgs : List (Option (List Byte))}
    (hs : State.Behind s) (h : LoopLeft cmd12 s msgs t) : Kept s.mem t.mem := by
  induction h with
  | pass h => exact passLeft_kept hs h
  | later hpass _ ih =>
    obtain ⟨hkept, hbehind⟩ := recvPass_kept hs (by rw [hpass]; rfl)
    exact hkept.trans (ih hbehind)
  | finish hpass hfinish =>
    exact (recvPass_kept hs (by rw [hpass]; rfl)).1.trans (finishLeft_kept hfinish)

/-- What the receiving loop leaves when it waits or has returned. -/
theorem recvLoop_kept {cmd12 : TcmdInfo} {s t : State} {r : Option ℤ}
    {msgs : List (Option (List Byte))} (hs : State.Behind s)
    (h : callResult (s.recvLoop cmd12 msgs) = some (r, t)) : Kept s.mem t.mem := by
  induction msgs generalizing s with
  | nil =>
    cases h
    exact Kept.refl _
  | cons msg msgs ih =>
    rw [State.recvLoop] at h
    cases hpass : s.recvPass cmd12 msg with
    | again s' =>
      rw [hpass] at h
      obtain ⟨hkept, hbehind⟩ := recvPass_kept hs (by rw [hpass]; rfl)
      exact hkept.trans (ih hbehind h)
    | ended ret s' =>
      rw [hpass] at h
      have hkept : Kept s.mem s'.mem := (recvPass_kept hs (by rw [hpass]; rfl)).1
      rcases finish_cases s' cmd12 ret with hhang | ⟨u, hu, -⟩
      · dsimp only at h
        rw [hhang] at h
        cases h
      · dsimp only at h
        rw [hu] at h
        cases h
        exact hkept.trans (finish_kept hu)
    | hang =>
      rw [hpass] at h
      cases h

/-! ## Updates -/

/-- The length in the staging area is erased, or small enough that a download may go on
    behind that many bytes. -/
def LengthOk (m : Mem) : Prop :=
  STMFLASH_ReadWord m updataAppAddr = 0xffffffff ∨
    updataAppAddr + 4 + (STMFLASH_ReadWord m updataAppAddr).toNat < 2 ^ 32

/-- The flash at the start of the receiving loop. -/
theorem start_kept (d : Update.Device) (send rev : List Byte) :
    Kept d.mem (start d send rev).mem := by
  show Kept d.mem (Update.resume d.mem (TcmdInfo.ofBytes (rev.drop sizeofStPackCmd))).2
  unfold Update.resume
  dsimp only
  split_ifs
  · exact Kept.refl _
  · exact Kept.refl _
  · exact kept_of_erased (someErased_clearSaveDataSector _)

theorem start_behind {d : Update.Device} (send rev : List Byte) (h : LengthOk d.mem) :
    State.Behind (start d send rev) := by
  have hbase : updataAppAddr = 0x080A0000 := rfl
  show _ ≤ (chunkAddr (Update.resume d.mem (TcmdInfo.ofBytes (rev.drop sizeofStPackCmd))).1).toNat
  unfold Update.resume chunkAddr
  dsimp only
  have hfresh : updataAppAddr + 4 ≤ (BitVec.ofNat 32 updataAppAddr + 4 + 0).toNat := by decide
  split_ifs with herased hlt
  · exact hfresh
  · have hlen := h.resolve_left herased
    rw [hbase] at hlen ⊢
    bv_omega
  · exact hfresh

/-- The state of an update when it ends, or when its power fails. -/
def Leaves {σ α : Type} (o : Outcome σ α) (t : σ) : Prop :=
  o = .cut t ∨ ∃ a power, o = .done a t power

/-- A remote update changes nothing in front of the staging area except sector 1, at
    whatever operation it ends or the power fails, and whatever is received. -/
theorem process_kept {d : Update.Device} {send rev : List Byte} {msgs : List (Option (List Byte))}
    {power : Option ℕ} {t : State} (hlen : LengthOk d.mem)
    (h : Leaves (process rev msgs (started d send rev) power) t) : Kept d.mem t.mem := by
  have hbehind := start_behind send rev hlen
  have hrun := process_refines d send rev msgs power
  rcases h with h | ⟨r, power', h⟩
  · rw [h] at hrun
    cases hrun.1 with
    | cleared hc => exact kept_of_cleared hc
    | loop _ hl => exact (start_kept d send rev).trans (loopLeft_kept hbehind hl)
  · rw [h] at hrun
    by_cases hreq : AcceptsRequest rev
    · rw [process_eq_recvLoop hreq] at hrun
      exact (start_kept d send rev).trans (recvLoop_kept hbehind hrun.1)
    · unfold process_DEV_USER_RUPDATA at hrun
      dsimp only at hrun
      rw [if_pos (Decidable.not_not.1 hreq)] at hrun
      cases hrun.1
      exact kept_of_erased (someErased_clearSaveDataSector _)

end Abox.Device
