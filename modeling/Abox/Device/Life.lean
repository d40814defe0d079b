import Abox.Device.Files
import Abox.Lib.Runs

/-!
# The life of a device

A device runs its application, which updates itself over the network, by Ymodem and from a
USB disk, and saves its settings; at any operation of the flash the power can fail, and boots
follow, any number of which are cut as well.

* `life_safe`: over a whole life the bootloader is never changed, and the application that is
  started is the image that passed the check of a boot last, as long as no boot finds the length
  of no application (`Event.Ok`).
-/

namespace Abox.Device

open Nor PowerCut Runs Flash Config Update Boot

/-! ## The activities of the application -/

/-- What the application does with the flash, one activity at a time. -/
inductive Activity
  | remote (atStatus : AtStatus) (sysSetup send rev : List Byte)
    (msgs : List (Option (List Byte)))
  | ymodem (flen : BitVec 32) (calls : List (List Byte × ℕ)) (last : Option (List Byte × ℕ))
  | usb (isDeviceConnected : ℕ → Bool) (file : List Byte)
  | save (writeAddr : ℕ) (pBuffer : List Byte)

/-- An outcome, seen from the flash. -/
def flashOutcome : Outcome State (Option ℤ) → Outcome Mem Bool
  | .done r t power => .done (decide (r = some 1)) t.mem power
  | .cut t => .cut t.mem
  | .hang => .hang

/-- An activity as a program over the flash; the result says whether the device restarts. -/
def Activity.run : Activity → Prog Mem Bool
  | .remote atStatus sysSetup send rev msgs => fun m power =>
    flashOutcome (process rev msgs (started ⟨m, atStatus, sysSetup⟩ send rev) power)
  | .ymodem flen calls last =>
    Device.ymodem flen (calls.map fun c => readN c.1 c.2) (last.map fun c => readN c.1 c.2)
  | .usb isDeviceConnected file => do
    let _ ← updataSet isDeviceConnected file
    pure false
  | .save writeAddr pBuffer => do
    setSecret_1 writeAddr pBuffer
    pure false

/-- A file of this size leaves a length that an update can go on behind. -/
def Activity.FileFits : Activity → Prop
  | .usb _ file => updataAppAddr + 4 + file.length < 2 ^ 32
  | _ => True

/-! ## The life -/

/-- What happens in a life: an activity ends and the application goes on, or it ends or is cut
    and leaves `m1` for the next boot. -/
inductive Event
  | goes (a : Activity)
  | boots (a : Activity) (m1 : Mem)

/-- A step from the flash under one running application to the flash under the next. -/
inductive Step : Mem → Event → Mem → Prop
  | goes {m m' : Mem} {a : Activity} {power power' : Option ℕ} :
    a.run m power = .done false m' power' → Step m (.goes a) m'
  | boots {m m1 m2 m' : Mem} {a : Activity} {power power' power'' : Option ℕ} :
    Leaves (a.run m power) m1 → CutRuns main m1 m2 → main m2 power' = .done () m' power'' →
    Step m (.boots a m1) m'

/-- The length that a boot finds is erased or that of an application. -/
def BootLength (m : Mem) : Prop :=
  stagedLen m ≤ appSize ∨ STMFLASH_ReadWord m updataAppAddr = 0xffffffff

/-- The files fit, and the boots find lengths of applications. -/
def Event.Ok : Event → Prop
  | .goes a => a.FileFits
  | .boots a m1 => a.FileFits ∧ BootLength m1

/-- The image that a boot installs. -/
def Event.image : Event → Option Mem
  | .goes _ => none
  | .boots _ m1 => if Boot.checkFlashFile m1 = 0 then some m1 else none

/-- The application area of `m` holds the image staged in `m1`. -/
def Holds (m1 m : Mem) : Prop :=
  ∀ k < stagedLen m1, m (applicationAddress + k) = m1 (updataAppAddr + 4 + k)

/-- The application area of `m'` holds the image, or what that of `m` held. -/
def Receives (m : Mem) (image : Option Mem) (m' : Mem) : Prop :=
  match image with
  | none => AppUnchanged m m'
  | some m1 => Holds m1 m' ∧ stagedLen m1 ≤ appSize

/-- The image that was installed last in a life. -/
def lastImage (tr : List (Event × Mem)) : Option Mem := (tr.filterMap fun e => e.1.image).getLast?

/-! ## The length an activity leaves -/

/-- The length of the staging area is the same as before, or erased. -/
def LengthKept (m m' : Mem) : Prop :=
  STMFLASH_ReadWord m' updataAppAddr = STMFLASH_ReadWord m updataAppAddr ∨
    STMFLASH_ReadWord m' updataAppAddr = 0xffffffff

theorem LengthKept.refl (m : Mem) : LengthKept m m := Or.inl rfl

theorem LengthKept.trans {m m' m'' : Mem} (h : LengthKept m m') (h' : LengthKept m' m'') :
    LengthKept m m'' := by
  rcases h' with h' | h'
  · unfold LengthKept
    rw [h']
    exact h
  · exact Or.inr h'

theorem LengthKept.ok {m m' : Mem} (h : LengthKept m m') (hm : LengthOk m) : LengthOk m' := by
  rcases h with h | h
  · unfold LengthOk
    rw [h]
    exact hm
  · exact Or.inl h

theorem lengthKept_clear (m m' : Mem) : LengthKept m (Update.clearSaveDataSector m') :=
  Or.inr (readWord_of_erased ((erased_clearSaveDataSector m').mono le_rfl (by omega)))

theorem lengthKept_of_sector1 {m m' : Mem} (h : Sector1Only m m') : LengthKept m m' := by
  have hbase : updataAppAddr = 0x080A0000 := rfl
  exact Or.inl (readWord_congr fun k h1 _ => h k (by omega))

/-- A pass that goes on has not written the length. -/
theorem recvPass_length {cmd12 : TcmdInfo} {s s' : State} {msg : Option (List Byte)}
    (hs : State.Behind s) (h : s.recvPass cmd12 msg = .again s') : LengthKept s.mem s'.mem := by
  by_cases hacc : ∃ rev, msg = some rev ∧ s.Accepts rev
  · obtain ⟨rev, rfl, hacc⟩ := hacc
    rw [recvPass_chunk cmd12 hacc.1 hacc.2] at h
    cases hwrite : Flash.writeByteToFlash s.mem s.startAddr.toNat (chunk rev) with
    | none =>
      rw [hwrite] at h
      cases h
    | some r =>
      rw [hwrite] at h
      dsimp only at h
      by_cases hend : (s.advance rev r.2).cmd11.flen = cmd12.flen
      · rw [written_of_eq hend] at h
        dsimp only at h
        split_ifs at h
      · rw [written_of_ne hend] at h
        cases h
        exact Or.inl (length_of_written hwrite hs)
  · push Not at hacc
    obtain ⟨t, ht, -, -, hmem⟩ := recvPass_of_other cmd12 hacc
    rw [h] at ht
    cases ht
    rw [hmem]
    exact LengthKept.refl _

/-- The receiving loop leaves another length only if it returns 1. -/
theorem recvLoop_length {cmd12 : TcmdInfo} {s t : State} {r : Option ℤ}
    {msgs : List (Option (List Byte))} (hs : State.Behind s)
    (h : callResult (s.recvLoop cmd12 msgs) = some (r, t)) (hr : r ≠ some 1) :
    LengthKept s.mem t.mem := by
  induction msgs generalizing s with
  | nil =>
    cases h
    exact LengthKept.refl _
  | cons msg msgs ih =>
    rw [State.recvLoop] at h
    cases hpass : s.recvPass cmd12 msg with
    | again s' =>
      rw [hpass] at h
      have hbehind : State.Behind s' := (recvPass_kept hs (by rw [hpass]; rfl)).2
      exact (recvPass_length hs hpass).trans (ih hbehind h)
    | ended ret s' =>
      rw [hpass] at h
      dsimp only at h
      unfold State.finish at h
      dsimp only at h
      split_ifs at h with hone
      · cases hsave : Update.SaveSetup s'.mem (setSetupVer s'.sysSetup 0) with
        | none =>
          rw [hsave] at h
          cases h
        | some m =>
          rw [hsave, hone] at h
          cases h
          exact absurd rfl hr
      · rw [hone] at h
        cases h
        exact absurd rfl hr
      · cases h
        exact lengthKept_clear _ _
    | hang =>
      rw [hpass] at h
      cases h

theorem start_length (d : Update.Device) (send rev : List Byte) :
    LengthKept d.mem (start d send rev).mem := by
  show LengthKept d.mem (Update.resume d.mem (TcmdInfo.ofBytes (rev.drop sizeofStPackCmd))).2
  unfold Update.resume
  dsimp only
  split_ifs
  · exact LengthKept.refl _
  · exact LengthKept.refl _
  · exact lengthKept_clear _ _

/-- So does a remote update. -/
theorem process_length {d : Update.Device} {send rev : List Byte} {msgs : List (Option (List Byte))}
    {t : State} {r : Option ℤ} (hlen : LengthOk d.mem)
    (h : callResult (process_DEV_USER_RUPDATA d send rev msgs) = some (r, t)) (hr : r ≠ some 1) :
    LengthKept d.mem t.mem := by
  by_cases hreq : AcceptsRequest rev
  · rw [process_eq_recvLoop hreq] at h
    exact (start_length d send rev).trans (recvLoop_length (start_behind send rev hlen) h hr)
  · unfold process_DEV_USER_RUPDATA at h
    dsimp only at h
    rw [if_pos (Decidable.not_not.1 hreq)] at h
    cases h
    exact lengthKept_clear _ _

theorem length_of_block {m m' : Mem} {s_addr blen : ℕ} {data : List Byte}
    (h : blockResult m s_addr data blen = some m') (ha : updataAppAddr + 4 ≤ s_addr) :
    STMFLASH_ReadWord m' updataAppAddr = STMFLASH_ReadWord m updataAppAddr := by
  unfold blockResult at h
  split_ifs at h
  · cases h
    rfl
  · obtain ⟨r, hr, rfl⟩ := Option.map_eq_some_iff.1 h
    exact length_of_written hr ha

/-- The passes behind the head leave the length. -/
theorem updataLoop_length {isDeviceConnected : ℕ → Bool} {fsize : BitVec 32} {m m' : Mem}
    {buff rest : List Byte} {s_addr i : ℕ} {e : RtErr} (ha : updataAppAddr + 4 ≤ s_addr)
    (h : Update.updataLoop isDeviceConnected fsize m buff rest s_addr i false = some (e, m')) :
    STMFLASH_ReadWord m' updataAppAddr = STMFLASH_ReadWord m updataAppAddr := by
  induction hn : rest.length using Nat.strong_induction_on generalizing m buff rest s_addr i with
  | _ n ih =>
    subst hn
    rw [Update.updataLoop] at h
    by_cases hconn : ¬ isDeviceConnected i = true
    · rw [if_pos hconn] at h
      cases h
      rfl
    rw [if_neg hconn] at h
    dsimp only at h
    rw [if_neg Bool.false_ne_true, Option.bind_some] at h
    obtain ⟨u, hu, h⟩ := Option.bind_eq_some_iff.1 h
    have hblock := length_of_block hu ha
    by_cases hlast : min usbBufLen rest.length < usbBufLen
    · rw [dif_pos hlast] at h
      cases h
      exact hblock
    · rw [dif_neg hlast] at h
      refine (ih _ ?_ (by omega) h rfl).trans hblock
      simp only [f_read, List.length_drop]
      unfold usbBufLen at *
      omega

/-- The head of a file leaves its length. -/
theorem length_of_head {m m' : Mem} {buff : List Byte} {fsize : BitVec 32} {a : ℕ}
    (h : Update.fileHead m buff fsize updataAppAddr = some (some (m', a))) :
    STMFLASH_ReadWord m' updataAppAddr = fsize ∧ a = updataAppAddr + 4 := by
  refine ⟨?_, (kept_of_head h le_rfl).2⟩
  unfold Update.fileHead at h
  dsimp only at h
  split_ifs at h
  · rw [writeLength] at h
    cases h
    have hword := readWord_of_erased
      ((erased_clearSaveDataSector m).mono (le_refl updataAppAddr) (k := 4) (by omega))
    rw [readWord_programs, hword]
    exact BitVec.allOnes_and
  · cases h

/-- An update from a USB disk leaves the length, or that of the file. -/
theorem updataSet_length {isDeviceConnected : ℕ → Bool} {m m' : Mem} {file : List Byte} {e : RtErr}
    (h : Update.updataSet isDeviceConnected m file = some (e, m')) :
    LengthKept m m' ∨ STMFLASH_ReadWord m' updataAppAddr = BitVec.ofNat 32 file.length := by
  unfold Update.updataSet at h
  split_ifs at h
  · cases h
    exact Or.inl (LengthKept.refl _)
  · rw [Update.updataLoop] at h
    by_cases hconn : ¬ isDeviceConnected 0 = true
    · rw [if_pos hconn] at h
      cases h
      exact Or.inl (LengthKept.refl _)
    rw [if_neg hconn] at h
    obtain ⟨head, hhead, h⟩ := Option.bind_eq_some_iff.1 h
    rw [if_pos rfl] at hhead
    cases head with
    | none =>
      cases h
      exact Or.inl (LengthKept.refl _)
    | some p =>
      obtain ⟨t, a⟩ := p
      obtain ⟨hword, ha⟩ := length_of_head hhead
      obtain ⟨u, hu, h⟩ := Option.bind_eq_some_iff.1 h
      have hblock := length_of_block hu (by omega)
      right
      rw [← hword, ← hblock]
      by_cases hlast : min usbBufLen file.length < usbBufLen
      · rw [dif_pos hlast] at h
        cases h
        rfl
      · rw [dif_neg hlast] at h
        exact updataLoop_length (by omega) h

/-! ## Activities -/

/-- The state of the callbacks at the first packet behind the header. -/
def ymodemStart (m : Mem) (flen : BitVec 32) : Ymodem.ToFile :=
  { temp := []
    flen := flen
    fileAddr := BitVec.ofNat 32 (updataAppAddr + 4)
    fileType := .fileUpdata
    sys := { flash := m, serNetNum := 0, sysSetup := none } }

/-- What an outcome leaves that follows a function. -/
theorem left_of_follows {σ α : Type} {f : Option (α × σ)} {C : σ → Prop} {power : Option ℕ}
    {o : Outcome σ α} {t : σ} (h : o.Follows f C power) (ht : Leaves o t) :
    C t ∨ ∃ a, f = some (a, t) := by
  rcases ht with rfl | ⟨a, power', rfl⟩
  · exact Or.inl h.1
  · exact Or.inr ⟨a, h.1⟩

/-- What is left behind `c` with a constant result is left by `c`. -/
theorem leaves_of_bind {σ α β : Type} {c : Prog σ α} {b : β} {s t : σ} {power : Option ℕ}
    (h : Leaves ((c >>= fun _ => pure b) s power) t) : Leaves (c s power) t := by
  have hrun : (c >>= fun _ => (pure b : Prog σ β)) s power =
      Prog.bind c (fun _ => pure b) s power := rfl
  rw [hrun] at h
  unfold Prog.bind at h
  cases hc : c s power with
  | done a u power' =>
    rw [hc] at h
    rcases h with h | ⟨_, _, h⟩
    · cases h
    · cases h
      exact Or.inr ⟨_, _, rfl⟩
  | cut u =>
    rw [hc] at h
    rcases h with h | ⟨_, _, h⟩
    · cases h
      exact Or.inl rfl
    · cases h
  | hang =>
    rw [hc] at h
    rcases h with h | ⟨_, _, h⟩ <;> cases h

/-- A remote update, seen from the flash. -/
theorem leaves_of_flash {o : Outcome State (Option ℤ)} {m : Mem}
    (h : Leaves (flashOutcome o) m) : ∃ t : State, t.mem = m ∧ Leaves o t := by
  cases o with
  | done r t power' =>
    rcases h with h | ⟨_, _, h⟩
    · cases h
    · cases h
      exact ⟨t, rfl, Or.inr ⟨_, _, rfl⟩⟩
  | cut t =>
    rcases h with h | ⟨_, _, h⟩
    · cases h
      exact ⟨t, rfl, Or.inl rfl⟩
    · cases h
  | hang => rcases h with h | ⟨_, _, h⟩ <;> cases h

theorem done_of_flash {o : Outcome State (Option ℤ)} {m : Mem} {power : Option ℕ}
    (h : flashOutcome o = .done false m power) :
    ∃ r t, o = .done r t power ∧ t.mem = m ∧ r ≠ some 1 := by
  cases o with
  | done r t power' =>
    unfold flashOutcome at h
    injection h with hr hm hpower
    exact ⟨r, t, by rw [hpower], hm, of_decide_eq_false hr⟩
  | cut t => cases h
  | hang => cases h

theorem done_of_bind {σ α β : Type} {c : Prog σ α} {b b' : β} {s t : σ} {power power' : Option ℕ}
    (h : (c >>= fun _ => pure b) s power = .done b' t power') :
    ∃ a, c s power = .done a t power' := by
  obtain ⟨a, u, power'', hc, hrest⟩ := Prog.bind_done h
  cases hrest
  exact ⟨a, hc⟩

/-- An update from a USB disk leaves what is in front of the staging area. -/
theorem kept_of_updataLoop {isDeviceConnected : ℕ → Bool} {fsize : BitVec 32} {m0 m m' : Mem}
    {buff rest : List Byte} {s_addr i : ℕ} {readTime : Bool} {e : RtErr}
    (ha : updataAppAddr ≤ s_addr) (hm : Kept m0 m)
    (h : Update.updataLoop isDeviceConnected fsize m buff rest s_addr i readTime = some (e, m')) :
    Kept m0 m' := by
  induction hn : rest.length using Nat.strong_induction_on
    generalizing m buff rest s_addr i readTime with
  | _ n ih =>
    subst hn
    rw [Update.updataLoop] at h
    by_cases hconn : ¬ isDeviceConnected i = true
    · rw [if_pos hconn] at h
      cases h
      exact hm
    rw [if_neg hconn] at h
    obtain ⟨head, hhead, h⟩ := Option.bind_eq_some_iff.1 h
    cases head with
    | none =>
      cases h
      exact hm
    | some p =>
      obtain ⟨hkept, ha'⟩ : Kept m0 p.1 ∧ updataAppAddr ≤ p.2 :=
        kept_of_passHead ha hm (by rw [hhead]; rfl)
      obtain ⟨u, hu, h⟩ := Option.bind_eq_some_iff.1 h
      have hkept' := hkept.trans (kept_of_block hu ha')
      by_cases hlast : min usbBufLen rest.length < usbBufLen
      · rw [dif_pos hlast] at h
        cases h
        exact hkept'
      · rw [dif_neg hlast] at h
        refine ih _ ?_ (by omega) hkept' h rfl
        simp only [f_read, List.length_drop]
        unfold usbBufLen at *
        omega

theorem kept_of_updataSet {isDeviceConnected : ℕ → Bool} {m m' : Mem} {file : List Byte} {e : RtErr}
    (h : Update.updataSet isDeviceConnected m file = some (e, m')) : Kept m m' := by
  unfold Update.updataSet at h
  split_ifs at h
  · cases h
    exact Kept.refl _
  · exact kept_of_updataLoop le_rfl (Kept.refl m) h

/-- Wherever an activity ends or is cut, what is in front of the staging area is the same. -/
theorem Activity.kept {a : Activity} {m m1 : Mem} {power : Option ℕ} (hlen : LengthOk m)
    (h : Leaves (a.run m power) m1) : Kept m m1 := by
  cases a with
  | remote atStatus sysSetup send rev msgs =>
    obtain ⟨t, rfl, ht⟩ := leaves_of_flash h
    exact process_kept (d := ⟨m, atStatus, sysSetup⟩) hlen ht
  | ymodem flen calls last =>
    have hrun := ymodem_refines (u := ymodemStart m flen) rfl rfl calls last power
    rcases left_of_follows hrun h with h | ⟨r, h⟩
    · exact h
    · obtain ⟨u, hu, hpair⟩ := Option.map_eq_some_iff.1 h
      cases hpair
      exact (transfer_some (u := ymodemStart m flen) rfl le_rfl hu).1
  | usb isDeviceConnected file =>
    have hrun := updataSet_refines isDeviceConnected file m power
    rcases left_of_follows hrun (leaves_of_bind h) with h | ⟨r, h⟩
    · exact h
    · exact kept_of_updataSet h
  | save writeAddr pBuffer =>
    have hrun := setSecret_1_refines writeAddr pBuffer m power
    rcases left_of_follows hrun (leaves_of_bind h) with h | ⟨r, h⟩
    · exact kept_of_sector1 h
    · obtain ⟨u, hu, hpair⟩ := Option.map_eq_some_iff.1 h
      cases hpair
      exact kept_of_sector1 (sector1Only_setSecret_1 hu)

theorem ymodem_length {m m1 : Mem} {flen : BitVec 32} {calls : List (List Byte × ℕ)}
    {last : Option (List Byte × ℕ)} {power power' : Option ℕ}
    (h : Device.ymodem flen (calls.map fun c => readN c.1 c.2) (last.map fun c => readN c.1 c.2)
      m power = .done false m1 power') : LengthKept m m1 := by
  have hrun := ymodem_refines (u := ymodemStart m flen) rfl rfl calls last power
  change (Device.ymodem flen _ _ m power).Follows _ _ _ at hrun
  rw [h] at hrun
  obtain ⟨u, hu, hpair⟩ := Option.map_eq_some_iff.1 hrun.1
  have hcheck : decide (u.fileType = .fileCheckOk) = false := congrArg Prod.fst hpair
  have hm : u.sys.flash = m1 := congrArg Prod.snd hpair
  rw [← hm]
  rcases (transfer_some (u := ymodemStart m flen) rfl le_rfl hu).2 with hok | herased | hsame
  · exact absurd hok (of_decide_eq_false hcheck)
  · exact Or.inr herased
  · exact Or.inl hsame

/-- An activity behind which the application goes on leaves a length that is in order. -/
theorem Activity.lengthOk {a : Activity} {m m1 : Mem} {power power' : Option ℕ}
    (hlen : LengthOk m) (hfits : a.FileFits) (h : a.run m power = .done false m1 power') :
    LengthOk m1 := by
  cases a with
  | remote atStatus sysSetup send rev msgs =>
    obtain ⟨r, t, hproc, rfl, hr⟩ := done_of_flash h
    have hrun := process_refines ⟨m, atStatus, sysSetup⟩ send rev msgs power
    rw [hproc] at hrun
    exact (process_length (d := ⟨m, atStatus, sysSetup⟩) hlen hrun.1 hr).ok hlen
  | ymodem flen calls last => exact (ymodem_length h).ok hlen
  | usb isDeviceConnected file =>
    obtain ⟨e, hset⟩ := done_of_bind h
    have hrun := updataSet_refines isDeviceConnected file m power
    rw [hset] at hrun
    rcases updataSet_length hrun.1 with hkept | hsize
    · exact hkept.ok hlen
    · right
      have hfits' : updataAppAddr + 4 + file.length < 2 ^ 32 := hfits
      rw [hsize, BitVec.toNat_ofNat, Nat.mod_eq_of_lt (by omega)]
      exact hfits'
  | save writeAddr pBuffer =>
    obtain ⟨e, hset⟩ := done_of_bind h
    have hrun := setSecret_1_refines writeAddr pBuffer m power
    rw [hset] at hrun
    obtain ⟨u, hu, hpair⟩ := Option.map_eq_some_iff.1 hrun.1
    cases hpair
    exact (lengthKept_of_sector1 (sector1Only_setSecret_1 hu)).ok hlen

/-! ## Steps -/

/-- A boot leaves a length that is in order. -/
theorem main_lengthOk {m m' : Mem} {power power' : Option ℕ}
    (h : main m power = .done () m' power') : LengthOk m' := by
  by_cases hzero : STMFLASH_ReadWord m updataAppAddr = 0
  · unfold main at h
    rw [Prog.get_bind, if_neg (fun hne => hne.1 hzero)] at h
    cases h
    right
    rw [hzero]
    decide
  · exact Or.inl (main_done hzero h)

theorem image_of_good {a : Activity} {m1 : Mem} (h : Boot.checkFlashFile m1 = 0) :
    (Event.boots a m1).image = some m1 := if_pos h

theorem image_of_bad {a : Activity} {m1 : Mem} (h : ¬ Boot.checkFlashFile m1 = 0) :
    (Event.boots a m1).image = none := if_neg h

/-- What a boot starts: the image, if it passed the check, and the same application if not. -/
theorem boot_receives {m1 m2 m' : Mem} {power power' : Option ℕ} (a : Activity)
    (hlen : BootLength m1) (hcuts : CutRuns main m1 m2)
    (hboot : main m2 power = .done () m' power') : Receives m1 (Event.boots a m1).image m' := by
  obtain ⟨-, -, hdone⟩ := boot_recovers hlen hcuts
  obtain ⟨hgood, hbad⟩ := hdone power m' power' hboot
  by_cases hcheck : Boot.checkFlashFile m1 = 0
  · rw [image_of_good hcheck]
    exact ⟨hgood hcheck, stagedLen_of_good hcheck hlen⟩
  · rw [image_of_bad hcheck]
    exact hbad hcheck

/-- What was held before a step that leaves the application is held behind it. -/
theorem Receives.trans {m m' m'' : Mem} {image image' : Option Mem} (h : Receives m image m')
    (h' : Receives m' image' m'') : Receives m (image'.or image) m'' := by
  cases image' with
  | some m1 => exact h'
  | none =>
    rw [Option.none_or]
    cases image with
    | none => exact fun k hk => (h' k hk).trans (h k hk)
    | some m1 =>
      obtain ⟨hholds, hsize⟩ := h
      exact ⟨fun k hk => (h' k (by omega)).trans (hholds k hk), hsize⟩

/-- The flash after a step: the bootloader is the same, the length is in order, and the
    application is the image of the step, or the same. -/
theorem step_spec {m m' : Mem} {e : Event} (hlen : LengthOk m) (hok : e.Ok) (h : Step m e m') :
    (∀ k < dataAddr, m' k = m k) ∧ LengthOk m' ∧ Receives m e.image m' := by
  cases h with
  | goes h =>
    have hkept := Activity.kept hlen (Or.inr ⟨_, _, h⟩)
    exact ⟨fun k hk => hkept k (Or.inl hk), Activity.lengthOk hlen hok h, hkept.appUnchanged⟩
  | @boots m1 m2 _ a _ _ _ hleft hcuts hboot =>
    have hkept := Activity.kept hlen hleft
    have hmain := main_keeps hok.2
    have hwiped : Wiped m1 m' := hmain.done (hmain.cutRuns (Wiped.refl _) hcuts) hboot
    have hdata : dataAddr ≤ applicationAddress := by decide
    refine ⟨fun k hk => ?_, main_lengthOk hboot, ?_⟩
    · rw [hwiped.front k (by omega)]
      exact hkept k (Or.inl hk)
    · have hsame : Receives m none m1 := hkept.appUnchanged
      rw [← Option.or_none (o := (Event.boots a m1).image)]
      exact hsame.trans (boot_receives a hok.2 hcuts hboot)

/-! ## Lives -/

theorem lastImage_snoc (tr : List (Event × Mem)) (e : Event) (m : Mem) :
    lastImage (tr ++ [(e, m)]) = e.image.or (lastImage tr) := by
  unfold lastImage
  rw [List.filterMap_append, List.getLast?_append]
  have hone : ([(e, m)].filterMap fun e => e.1.image) = e.image.toList := by
    cases himage : e.image <;> simp [himage]
  rw [hone]
  cases e.image <;> rfl

/-- What is kept over a life. -/
structure Sound (m0 : Mem) (tr : List (Event × Mem)) (m : Mem) : Prop where
  front : ∀ k < dataAddr, m k = m0 k
  length : LengthOk m
  app : Receives m0 (lastImage tr) m

theorem sound_of_path {m0 : Mem} {tr : List (Event × Mem)} (hlen : LengthOk m0)
    (hp : Path Step m0 tr) (hok : ∀ p ∈ tr, p.1.Ok) : Sound m0 tr (last m0 tr) := by
  induction tr using List.reverseRecOn with
  | nil => exact ⟨fun _ _ => rfl, hlen, fun _ _ => rfl⟩
  | append_singleton tr p ih =>
    obtain ⟨e, m'⟩ := p
    obtain ⟨hp, hlast⟩ := path_append.1 hp
    have hs := ih hp fun p hp => hok p (List.mem_append_left _ hp)
    have he : e.Ok := hok (e, m') (List.mem_append_right _ (List.mem_singleton_self _))
    rw [last_append]
    cases hlast with
    | cons hstep _ =>
      obtain ⟨hfront, hlength, happ⟩ := step_spec hs.length he hstep
      refine ⟨fun k hk => (hfront k hk).trans (hs.front k hk), hlength, ?_⟩
      rw [lastImage_snoc]
      exact hs.app.trans happ

/-- In every life whose files fit and whose boots find an erased length or that of an
    application, the bootloader is the one of the first state and the application is the
    image that passed the check of a boot last, or the first one if there was none. And it
    stays so at every operation: wherever the next activity is cut with such a length, and
    however many boots behind it, the bootloader is there to start again. -/
theorem life_safe {m0 : Mem} {tr : List (Event × Mem)} (hlen : LengthOk m0)
    (hp : Path Step m0 tr) (hok : ∀ p ∈ tr, p.1.Ok) :
    (∀ k < dataAddr, last m0 tr k = m0 k) ∧ Receives m0 (lastImage tr) (last m0 tr) ∧
      ∀ (a : Activity) (power : Option ℕ) (m1 m2 : Mem), BootLength m1 →
        Leaves (a.run (last m0 tr) power) m1 → CutRuns main m1 m2 →
          (∀ k < dataAddr, m2 k = m0 k) ∧ ∃ m', main m2 none = .done () m' none := by
  have hsound := sound_of_path hlen hp hok
  refine ⟨hsound.front, hsound.app, fun a power m1 m2 hboot hleft hcuts => ?_⟩
  have hkept := Activity.kept hsound.length hleft
  have hdata : dataAddr ≤ applicationAddress := by decide
  refine ⟨fun k hk => ?_, (boot_recovers hboot hcuts).1⟩
  rw [((main_keeps hboot).cutRuns (Wiped.refl _) hcuts).front k (by omega), hkept k (Or.inl hk)]
  exact hsound.front k hk

/-! ## A life -/

/-- An activity with its power, and for how many operations the power of the boots behind it
    lasts that are cut. -/
inductive Turn
  | goes (a : Activity) (power : Option ℕ)
  | boots (a : Activity) (power : Option ℕ) (cuts : List ℕ)

/-- What an outcome leaves in the flash. -/
def left {α : Type} : Outcome Mem α → Option Mem
  | .done _ m _ => some m
  | .cut m => some m
  | .hang => none

theorem leaves_of_left {α : Type} {o : Outcome Mem α} {m : Mem} (h : left o = some m) :
    Leaves o m := by
  cases o with
  | done a m' power =>
    cases h
    exact Or.inr ⟨a, power, rfl⟩
  | cut m' =>
    cases h
    exact Or.inl rfl
  | hang => cases h

/-- The boots that are cut. -/
def cutBoots : List ℕ → Mem → Option Mem
  | [], m => some m
  | n :: cuts, m =>
    match main m (some n) with
    | .cut m' => cutBoots cuts m'
    | _ => none

theorem cutRuns_of_cutBoots {cuts : List ℕ} {m m' : Mem} (h : cutBoots cuts m = some m') :
    CutRuns main m m' := by
  induction cuts generalizing m with
  | nil =>
    cases h
    exact .none _
  | cons n cuts ih =>
    unfold cutBoots at h
    cases hmain : main m (some n) with
    | cut m1 =>
      rw [hmain] at h
      exact .cut hmain (ih h)
    | done _ _ _ =>
      rw [hmain] at h
      cases h
    | hang =>
      rw [hmain] at h
      cases h

/-- The step that a turn is. -/
def Turn.run (m : Mem) : Turn → Option (Event × Mem)
  | .goes a power =>
    match a.run m power with
    | .done false m' _ => some (.goes a, m')
    | _ => none
  | .boots a power cuts =>
    (left (a.run m power)).bind fun m1 =>
      (cutBoots cuts m1).bind fun m2 =>
        match main m2 none with
        | .done _ m' _ => some (.boots a m1, m')
        | _ => none

theorem step_of_run {m : Mem} {t : Turn} {p : Event × Mem} (h : t.run m = some p) :
    Step m p.1 p.2 := by
  cases t with
  | goes a power =>
    simp only [Turn.run] at h
    split at h
    next m' _ hrun =>
      cases h
      exact .goes hrun
    next => cases h
  | boots a power cuts =>
    simp only [Turn.run] at h
    obtain ⟨m1, hleft, h⟩ := Option.bind_eq_some_iff.1 h
    obtain ⟨m2, hcuts, h⟩ := Option.bind_eq_some_iff.1 h
    split at h
    next _ m' _ hboot =>
      cases h
      exact .boots (leaves_of_left hleft) (cutRuns_of_cutBoots hcuts) hboot
    next => cases h

/-- The life that turns make. -/
def live : Mem → List Turn → Option (List (Event × Mem))
  | _, [] => some []
  | m, t :: turns => (t.run m).bind fun p => (live p.2 turns).map (p :: ·)

theorem path_of_live {m : Mem} {turns : List Turn} {tr : List (Event × Mem)}
    (h : live m turns = some tr) : Path Step m tr := by
  induction turns generalizing m tr with
  | nil =>
    cases h
    exact .nil m
  | cons t turns ih =>
    unfold live at h
    obtain ⟨p, hp, h⟩ := Option.bind_eq_some_iff.1 h
    obtain ⟨tr', htr, rfl⟩ := Option.map_eq_some_iff.1 h
    exact .cons (step_of_run hp) (ih htr)

instance (m : Mem) : Decidable (BootLength m) := inferInstanceAs (Decidable (_ ∨ _))

instance : (a : Activity) → Decidable a.FileFits
  | .usb .. => inferInstanceAs (Decidable (_ < _))
  | .remote .. | .ymodem .. | .save .. => inferInstanceAs (Decidable True)

instance : (e : Event) → Decidable e.Ok
  | .goes a => inferInstanceAs (Decidable a.FileFits)
  | .boots .. => inferInstanceAs (Decidable (_ ∧ _))

/-- A program of five bytes and its checksum. -/
def nineBytes : List Byte := [0x65, 0x73, 0x74, 0x6F, 0x01, 0xDF, 0x78, 0x1F, 0xD7]

/-- The update with this program, in two messages. -/
def updateNine : Activity :=
  .remote .atFree (exampleDevice fun _ => 0xFF).sysSetup (List.replicate 1024 0)
    (exampleRequest 9) [some (exampleMessage 0 (nineBytes.take 6)), none,
      some (exampleMessage 6 (nineBytes.drop 6))]

/-- On an erased flash settings are saved and the update is cut at its eighth operation; it
    comes again after a boot and ends, and two boots behind it are cut. -/
def twoUpdates : List Turn :=
  [.goes (.save dataFreqAddr [1, 2, 3]) none, .boots updateNine (some 7) [],
    .boots updateNine none [2, 9]]

/-- The application is then the program. -/
theorem life_safe_twoUpdates : ∃ tr, live (fun _ => 0xFF) twoUpdates = some tr ∧
    Path Step (fun _ => 0xFF) tr ∧
    ∀ k < 9, last (fun _ => 0xFF) tr (applicationAddress + k) = nineBytes.getD k 0 := by
  obtain ⟨tr, hlive, hok, himage⟩ : ∃ tr, live (fun _ => 0xFF) twoUpdates = some tr ∧
      (∀ p ∈ tr, p.1.Ok) ∧
      (lastImage tr).any (fun m1 => decide (stagedLen m1 = 9 ∧
        read m1 (updataAppAddr + 4) 9 = nineBytes)) = true := by
    have hrun : (live (fun _ => 0xFF) twoUpdates).any (fun tr => decide ((∀ p ∈ tr, p.1.Ok) ∧
        (lastImage tr).any (fun m1 => decide (stagedLen m1 = 9 ∧
          read m1 (updataAppAddr + 4) 9 = nineBytes)) = true)) = true := by
      decide +kernel
    obtain ⟨tr, hlive, hp⟩ := (Option.any_eq_true _ _).1 hrun
    exact ⟨tr, hlive, of_decide_eq_true hp⟩
  obtain ⟨m1, hlast, hm1⟩ := (Option.any_eq_true _ _).1 himage
  obtain ⟨hstaged, hread⟩ := of_decide_eq_true hm1
  have hpath := path_of_live hlive
  have hlen : LengthOk fun _ => 0xFF := Or.inl (readWord_of_erased fun _ _ _ => rfl)
  obtain ⟨-, happ, -⟩ := life_safe hlen hpath hok
  rw [hlast] at happ
  refine ⟨tr, hlive, hpath, fun k hk => ?_⟩
  rw [happ.1 k (by omega), ← hread]
  interval_cases k <;> rfl

end Abox.Device
