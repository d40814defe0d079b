import Abox.Flash.Secret
import Abox.Lib.Layout
import Abox.Lib.Runs

/-!
# The table of radio frequencies

Model of the functions that read, check and change the frequency table:
`initFreqInfo`, `checkFreqInfo` and `saveFreqInfo` (`Abox/src/ctrl.c` lines
118–178), `setFreqDefault` and `chooseAboxSubgFreq` (`Abox/src/sub_G_A.c` lines
85–103 and 211–244) and `changeAboxFreq` (`sub-G/exchange.c` lines 585–607).

The table is kept in `aboxInfo.freqInfo` and in the flash. The radio thread
looks for a free channel while another thread takes tables from the server, so
each test of the environment (`checkAboxEnvironment`) is a step of its own.

* `freqTable_iff`: in a run from start-up both copies are valid in every state,
  and no frame writes behind `freqCollect`, exactly when every step meets
  `FreqOk`.
* `table_out_of_range`: a frame whose entries are not checked.
-/

namespace Abox.Radio

open Nor Flash Runs

/-- `RF_FREQ_CONTROL_INTE_8_NUM` (`sub_G.h` line 61). -/
def rfFreqControlInte8Num : ℕ := 30

/-- `freq_information` (`abox.h` lines 167–172). -/
structure FreqInformation where
  preFreq : BitVec 16
  freqSaveNum : BitVec 16
  freqCollect : Fin rfFreqControlInte8Num → BitVec 16

/-- The bytes of a `freq_information`. -/
def freqInformationLayout : Layout FreqInformation :=
  (Layout.half.pair (Layout.half.pair (Layout.half.array rfFreqControlInte8Num))).iso
    ⟨fun p => ⟨p.1, p.2.1, p.2.2⟩, fun f => ⟨f.preFreq, f.freqSaveNum, f.freqCollect⟩,
      fun _ => rfl, fun _ => rfl⟩

theorem size_freqInformationLayout : freqInformationLayout.size = sizeofFreqInformation := by
  show 2 + (2 + (Layout.half.array rfFreqControlInte8Num).size) = 64
  rw [Layout.size_array]
  rfl

namespace FreqInformation

variable (f : FreqInformation)

/-- `freqCollect[k]`; past the end of the array it reads as zero. -/
def entry (k : ℕ) : BitVec 16 := if h : k < rfFreqControlInte8Num then f.freqCollect ⟨k, h⟩ else 0

/-- One of the `freqSaveNum` entries is no frequency. -/
def HasBadEntry : Prop :=
  ∃ i : Fin rfFreqControlInte8Num, i < f.freqSaveNum.toNat ∧
    rfFreqControlInte8Num ≤ (f.freqCollect i).toNat

instance : Decidable f.HasBadEntry := by unfold HasBadEntry; infer_instance

/-- The table selects one of its entries, and all of them are frequencies. -/
structure Valid : Prop where
  preFreq_lt : f.preFreq < f.freqSaveNum
  freqSaveNum_le : f.freqSaveNum.toNat ≤ rfFreqControlInte8Num
  not_bad : ¬ f.HasBadEntry

end FreqInformation

/-! ## Reading, checking and saving -/

/-- The record at `DATA_FREQ_ADDR`. -/
def storedFreq (m : Mem) : FreqInformation :=
  freqInformationLayout.decode (STMFLASH_ReadMoreByte m dataFreqAddr sizeofFreqInformation)

/-- `initFreqInfo`: the result and the table that was read. -/
def initFreqInfo (m : Mem) : RtErr × FreqInformation :=
  let freqInfo := storedFreq m
  if freqInfo.preFreq < freqInfo.freqSaveNum ∧
      freqInfo.freqSaveNum.toNat < rfFreqControlInte8Num + 1 then
    if freqInfo.HasBadEntry then (.rtError, freqInfo) else (.rtEok, freqInfo)
  else (.rtError, freqInfo)

/-- `checkFreqInfo`: `rtError` if the table should be saved. The entries are
    tested only if the stored record has the same `preFreq` and `freqSaveNum`. -/
def checkFreqInfo (m : Mem) (freqInfo : FreqInformation) : RtErr :=
  if freqInfo.freqSaveNum ≤ freqInfo.preFreq ∨
      rfFreqControlInte8Num < freqInfo.freqSaveNum.toNat then .rtEok
  else
    let freqTemp := storedFreq m
    if freqInfo.preFreq = freqTemp.preFreq ∧ freqInfo.freqSaveNum = freqTemp.freqSaveNum then
      if freqInfo.HasBadEntry then .rtEok
      else if ∃ i : Fin rfFreqControlInte8Num, i < freqInfo.freqSaveNum.toNat ∧
          freqInfo.freqCollect i ≠ freqTemp.freqCollect i then .rtError
      else .rtEok
    else .rtError

/-- `saveFreqInfo`. -/
def saveFreqInfo (m : Mem) (freqInfo : FreqInformation) : Option Mem :=
  setSecret_1 m dataFreqAddr (freqInformationLayout.encode freqInfo)

/-- The channels of the default table. -/
def defaultChannels : List (BitVec 16) := [4, 5, 6, 7, 8, 22, 23, 24, 25, 26]

/-- `setFreqDefault`: the default table and the flash it is saved in. -/
def setFreqDefault (m : Mem) (freqInfo : FreqInformation) : Option (FreqInformation × Mem) :=
  let freqInfo :=
    { freqInfo with
      preFreq := 0
      freqSaveNum := 10
      freqCollect := fun i => defaultChannels.getD i (freqInfo.freqCollect i) }
  (saveFreqInfo m freqInfo).map fun m => (freqInfo, m)

/-! ## The system -/

/-- The flash, `aboxInfo.freqInfo`, the current channel in `Cdma_Info.freq_num`
    and in `dicInfo.fifthDicInfo.freq_num`, whether `chooseAboxSubgFreq` waits
    for the environment test, and the number of entries `changeAboxFreq` copied
    last. -/
structure FreqSystem where
  flash : Mem
  freqInfo : FreqInformation
  freqNum : Byte
  dicFreqNum : Byte
  choosing : Bool
  copied : ℕ

/-- What happens: a restart; a frame for `changeAboxFreq`, `uninit` being what
    its local table holds before; a call of `chooseAboxSubgFreq`; a result of
    `checkAboxEnvironment`, `rtError` if the channel is taken. -/
inductive FreqEvent
  | boot
  | changeAboxFreq (rev : List Byte) (uninit : FreqInformation)
  | chooseAboxSubgFreq (freq_num : Byte)
  | checkAboxEnvironment (result : RtErr)

namespace FreqSystem

/-- The frequency part of `initAboxInformation` (`sub_G_A.c` lines 128–129). -/
def boot (s : FreqSystem) : Option FreqSystem :=
  let s := { s with choosing := false, copied := 0 }
  match initFreqInfo s.flash with
  | (.rtEok, freqInfo) => some { s with freqInfo := freqInfo }
  | (.rtError, freqInfo) =>
    (setFreqDefault s.flash freqInfo).map fun (freqInfo, m) =>
      { s with freqInfo := freqInfo, flash := m }

/-- `freqSaveNum` of a `TCMD_110` frame. -/
def frameNum (rev : List Byte) : BitVec 16 := u16At rev (sizeofStPackCmd + 2)

/-- The entry `i` of a `TCMD_110` frame. -/
def frameEntry (rev : List Byte) (i : ℕ) : BitVec 16 := u16At rev (sizeofStPackCmd + 4 + 2 * i)

/-- The table `changeAboxFreq` takes from a frame. Entries that do not fit into
    `freqCollect` are written behind it, where nothing of the model lies. -/
def frameTable (rev : List Byte) (uninit : FreqInformation) : FreqInformation where
  preFreq := 0
  freqSaveNum := frameNum rev
  freqCollect := fun i =>
    if i < (frameNum rev).toNat then frameEntry rev i else uninit.freqCollect i

/-- `changeAboxFreq`. -/
def changeAboxFreq (s : FreqSystem) (rev : List Byte) (uninit : FreqInformation) :
    Option FreqSystem :=
  let s := { s with copied := (frameNum rev).toNat }
  let freqInfo := frameTable rev uninit
  match checkFreqInfo s.flash freqInfo with
  | .rtError => (saveFreqInfo s.flash freqInfo).map fun m =>
      { s with flash := m, freqInfo := freqInfo }
  | .rtEok => some s

/-- The channel `preFreq` is set. -/
def select (s : FreqSystem) (preFreq : BitVec 16) : FreqSystem :=
  { s with
    freqInfo := { s.freqInfo with preFreq := preFreq }
    freqNum := (s.freqInfo.entry preFreq.toNat).setWidth 8 }

/-- `chooseAboxSubgFreq` up to its first environment test. -/
def chooseAboxSubgFreq (s : FreqSystem) (freq_num : Byte) : FreqSystem :=
  if freq_num.setWidth 16 < s.freqInfo.freqSaveNum then
    { s.select (freq_num.setWidth 16) with choosing := true }
  else s

/-- `chooseAboxSubgFreq` from one environment test to the next, or to its end. -/
def checkAboxEnvironment (s : FreqSystem) : RtErr → Option FreqSystem
  | .rtError =>
    let preFreq := s.freqInfo.preFreq + 1
    some (s.select (if s.freqInfo.freqSaveNum ≤ preFreq then 0 else preFreq))
  | .rtEok =>
    let s := { s with choosing := false, dicFreqNum := s.freqNum }
    match checkFreqInfo s.flash s.freqInfo with
    | .rtError => (saveFreqInfo s.flash s.freqInfo).map fun m => { s with flash := m }
    | .rtEok => some s

/-- One step, `none` if it cannot be taken. -/
def step (s : FreqSystem) : FreqEvent → Option FreqSystem
  | .boot => s.boot
  | .changeAboxFreq rev uninit => s.changeAboxFreq rev uninit
  | .chooseAboxSubgFreq freq_num =>
    if s.choosing then none else some (s.chooseAboxSubgFreq freq_num)
  | .checkAboxEnvironment result => if s.choosing then s.checkAboxEnvironment result else none

/-- The step `e` leads from `s` to `s'`. -/
def Step (s : FreqSystem) (e : FreqEvent) (s' : FreqSystem) : Prop := s.step e = some s'

/-- Both copies of the table are valid, and the last frame fitted into
    `freqCollect`. -/
structure Good (s : FreqSystem) : Prop where
  ram : s.freqInfo.Valid
  flash : (storedFreq s.flash).Valid
  copied : s.copied ≤ rfFreqControlInte8Num

/-- One of the entries of a `TCMD_110` frame is no frequency. -/
def BadFrame (rev : List Byte) : Prop :=
  ∃ i < (frameNum rev).toNat, rfFreqControlInte8Num ≤ (frameEntry rev i).toNat

/-- The steps that keep both copies valid: a frame announces at most 30 entries,
    and if one of them is no frequency, then the stored record has the same
    `preFreq` and `freqSaveNum` as the frame, so that the entries are tested. -/
def FreqOk (s : FreqSystem) : FreqEvent → Prop
  | .changeAboxFreq rev _ => (frameNum rev).toNat ≤ rfFreqControlInte8Num ∧
      (BadFrame rev → (storedFreq s.flash).preFreq = 0 ∧
        (storedFreq s.flash).freqSaveNum = frameNum rev)
  | _ => True

end FreqSystem

/-! ## Specifications -/

/-- What is saved is read back. -/
theorem storedFreq_saveFreqInfo (m : Mem) (f : FreqInformation) :
    ∃ m', saveFreqInfo m f = some m' ∧ storedFreq m' = f := by
  have hlen : (freqInformationLayout.encode f).length = Record.freq.size := by
    rw [freqInformationLayout.length_encode]
    exact size_freqInformationLayout
  obtain ⟨m', hm', hload, -⟩ := setSecret_1_eq m .freq ⟨freqInformationLayout.encode f, hlen⟩
  refine ⟨m', hm', ?_⟩
  have hread : STMFLASH_ReadMoreByte m' dataFreqAddr sizeofFreqInformation =
      freqInformationLayout.encode f := hload
  unfold storedFreq
  rw [hread, freqInformationLayout.decode_encode]

/-- A table that is read without error is the stored one, and valid. -/
theorem valid_of_initFreqInfo {m : Mem} {f : FreqInformation}
    (h : initFreqInfo m = (.rtEok, f)) : f = storedFreq m ∧ f.Valid := by
  simp only [initFreqInfo] at h
  split_ifs at h with hrange hbad
  · cases h
  · obtain rfl := (Prod.mk.inj h).2
    exact ⟨rfl, hrange.1, Nat.le_of_lt_succ hrange.2, hbad⟩
  · cases h

/-- The stored record selects the same entry of as many ones. -/
def SameHead (m : Mem) (f : FreqInformation) : Prop :=
  f.preFreq = (storedFreq m).preFreq ∧ f.freqSaveNum = (storedFreq m).freqSaveNum

/-- A table to be saved may hold a bad entry if the stored record has another
    head. -/
theorem checkFreqInfo_cases (m : Mem) (f : FreqInformation) :
    (checkFreqInfo m f = .rtError ∧ f.preFreq < f.freqSaveNum ∧
      f.freqSaveNum.toNat ≤ rfFreqControlInte8Num ∧ (f.HasBadEntry → ¬ SameHead m f)) ∨
    (checkFreqInfo m f = .rtEok ∧ (f.preFreq < f.freqSaveNum →
      f.freqSaveNum.toNat ≤ rfFreqControlInte8Num → SameHead m f)) := by
  simp only [checkFreqInfo]
  by_cases hrange : f.freqSaveNum ≤ f.preFreq ∨ rfFreqControlInte8Num < f.freqSaveNum.toNat
  · rw [if_pos hrange]
    refine Or.inr ⟨rfl, fun h1 h2 => ?_⟩
    rcases hrange with h | h
    · exact absurd h1 (BitVec.not_lt.2 h)
    · omega
  · rw [if_neg hrange]
    obtain ⟨h1, h2⟩ := not_or.1 hrange
    have hlt : f.preFreq < f.freqSaveNum := BitVec.not_le.1 h1
    have hle : f.freqSaveNum.toNat ≤ rfFreqControlInte8Num := Nat.le_of_not_lt h2
    by_cases hhead : f.preFreq = (storedFreq m).preFreq ∧ f.freqSaveNum = (storedFreq m).freqSaveNum
    · rw [if_pos hhead]
      by_cases hbad : f.HasBadEntry
      · rw [if_pos hbad]
        exact Or.inr ⟨rfl, fun _ _ => hhead⟩
      · rw [if_neg hbad]
        split_ifs
        · exact Or.inl ⟨rfl, hlt, hle, fun h => absurd h hbad⟩
        · exact Or.inr ⟨rfl, fun _ _ => hhead⟩
    · rw [if_neg hhead]
      exact Or.inl ⟨rfl, hlt, hle, fun _ => hhead⟩

/-- The default table is valid. -/
theorem valid_setFreqDefault {m m' : Mem} {f f' : FreqInformation}
    (h : setFreqDefault m f = some (f', m')) : f'.Valid ∧ storedFreq m' = f' := by
  unfold setFreqDefault at h
  obtain ⟨m1, hm1, heq⟩ := Option.map_eq_some_iff.1 h
  obtain ⟨rfl, rfl⟩ := Prod.mk.inj heq
  obtain ⟨m2, hm2, hstored⟩ := storedFreq_saveFreqInfo m _
  rw [hm1] at hm2
  obtain rfl := Option.some.inj hm2
  refine ⟨⟨?_, ?_, ?_⟩, hstored⟩
  · show (0 : BitVec 16) < 10
    decide
  · show (10 : BitVec 16).toNat ≤ 30
    decide
  · rintro ⟨i, hi, hbad⟩
    have hi' : (i : ℕ) < defaultChannels.length := hi
    have hmem := List.getElem_mem hi'
    have hall : ∀ b ∈ defaultChannels, b.toNat < 30 := by simp [defaultChannels]
    have hlt := hall _ hmem
    rw [← List.getD_eq_getElem _ (f.freqCollect i) hi'] at hlt
    exact absurd hbad (Nat.not_le.2 hlt)

namespace FreqSystem

theorem good_boot {s s' : FreqSystem} (h : s.boot = some s') : s'.Good := by
  simp only [boot] at h
  rcases hinit : initFreqInfo s.flash with ⟨r, f⟩
  rw [hinit] at h
  cases r with
  | rtEok =>
    obtain rfl := Option.some.inj h
    obtain ⟨rfl, hvalid⟩ := valid_of_initFreqInfo hinit
    exact ⟨hvalid, hvalid, Nat.zero_le _⟩
  | rtError =>
    obtain ⟨⟨f', m'⟩, hdef, rfl⟩ := Option.map_eq_some_iff.1 h
    obtain ⟨hvalid, hstored⟩ := valid_setFreqDefault hdef
    exact ⟨hvalid, by rw [hstored]; exact hvalid, Nat.zero_le _⟩

theorem hasBadEntry_frameTable {rev : List Byte} (uninit : FreqInformation)
    (h : (frameNum rev).toNat ≤ rfFreqControlInte8Num) :
    (frameTable rev uninit).HasBadEntry ↔ BadFrame rev := by
  constructor
  · rintro ⟨i, hi, hbad⟩
    refine ⟨i, hi, ?_⟩
    simpa only [frameTable, if_pos (show (i : ℕ) < (frameNum rev).toNat from hi)] using hbad
  · rintro ⟨i, hi, hbad⟩
    refine ⟨⟨i, by omega⟩, hi, ?_⟩
    simpa only [frameTable, if_pos hi] using hbad

/-- A frame keeps both copies valid exactly if it meets `FreqOk`. -/
theorem good_changeAboxFreq {s s' : FreqSystem} {rev : List Byte} {uninit : FreqInformation}
    (hgood : s.Good) (h : s.changeAboxFreq rev uninit = some s') :
    s'.Good ↔ s.FreqOk (.changeAboxFreq rev uninit) := by
  by_cases hnum : (frameNum rev).toNat ≤ rfFreqControlInte8Num
  · have hbad := hasBadEntry_frameTable uninit hnum
    simp only [FreqOk, hnum, true_and]
    simp only [changeAboxFreq] at h
    rcases checkFreqInfo_cases s.flash (frameTable rev uninit) with
      ⟨hcheck, hlt, hle, hhead⟩ | ⟨hcheck, hhead⟩
    · -- the table is saved
      rw [hcheck] at h
      obtain ⟨m', hm', rfl⟩ := Option.map_eq_some_iff.1 h
      obtain ⟨m1, hm1, hstored⟩ := storedFreq_saveFreqInfo s.flash (frameTable rev uninit)
      rw [hm'] at hm1
      obtain rfl := Option.some.inj hm1
      constructor
      · intro hgood' hframe
        exact absurd (hbad.2 hframe) hgood'.ram.not_bad
      · intro hok
        have hvalid : (frameTable rev uninit).Valid := by
          refine ⟨hlt, hle, fun hb => hhead hb ?_⟩
          obtain ⟨h1, h2⟩ := hok (hbad.1 hb)
          exact ⟨h1.symm, h2.symm⟩
        refine ⟨hvalid, ?_, hnum⟩
        show (storedFreq m').Valid
        rw [hstored]
        exact hvalid
    · rw [hcheck] at h
      obtain rfl := Option.some.inj h
      refine iff_of_true ⟨hgood.ram, hgood.flash, hnum⟩ ?_
      rintro ⟨i, hi, -⟩
      have hpos : (frameTable rev uninit).preFreq < (frameTable rev uninit).freqSaveNum := by
        show (0 : BitVec 16) < frameNum rev
        rw [BitVec.lt_def]
        exact lt_of_le_of_lt (Nat.zero_le i) hi
      obtain ⟨h1, h2⟩ := hhead hpos hnum
      exact ⟨h1.symm, h2.symm⟩
  · refine iff_of_false (fun hgood' => hnum ?_) fun hok => hnum hok.1
    have hcopied : s'.copied = (frameNum rev).toNat := by
      simp only [changeAboxFreq] at h
      split at h
      · obtain ⟨m', -, rfl⟩ := Option.map_eq_some_iff.1 h
        rfl
      · obtain rfl := Option.some.inj h
        rfl
    rw [← hcopied]
    exact hgood'.copied

/-- Another entry of a valid table is selected. -/
theorem good_select {s : FreqSystem} {preFreq : BitVec 16} (hgood : s.Good)
    (h : preFreq < s.freqInfo.freqSaveNum) : (s.select preFreq).Good :=
  ⟨⟨h, hgood.ram.freqSaveNum_le, hgood.ram.not_bad⟩, hgood.flash, hgood.copied⟩

theorem good_chooseAboxSubgFreq {s : FreqSystem} {freq_num : Byte} (hgood : s.Good) :
    (s.chooseAboxSubgFreq freq_num).Good := by
  unfold chooseAboxSubgFreq
  split_ifs with h
  · exact ⟨(good_select hgood h).ram, hgood.flash, hgood.copied⟩
  · exact hgood

theorem good_checkAboxEnvironment {s s' : FreqSystem} {result : RtErr} (hgood : s.Good)
    (h : s.checkAboxEnvironment result = some s') : s'.Good := by
  cases result with
  | rtError =>
    obtain rfl := Option.some.inj h
    apply good_select hgood
    split_ifs with hle
    · have := hgood.ram.preFreq_lt
      bv_omega
    · exact BitVec.not_le.1 hle
  | rtEok =>
    simp only [checkAboxEnvironment] at h
    split at h
    · obtain ⟨m', hm', rfl⟩ := Option.map_eq_some_iff.1 h
      obtain ⟨m1, hm1, hstored⟩ := storedFreq_saveFreqInfo s.flash s.freqInfo
      rw [hm'] at hm1
      obtain rfl := Option.some.inj hm1
      refine ⟨hgood.ram, ?_, hgood.copied⟩
      show (storedFreq m').Valid
      rw [hstored]
      exact hgood.ram
    · obtain rfl := Option.some.inj h
      exact ⟨hgood.ram, hgood.flash, hgood.copied⟩

/-- One step keeps both copies valid exactly if it meets `FreqOk`. -/
theorem step_good_iff {s s' : FreqSystem} {e : FreqEvent} (hgood : s.Good) (h : Step s e s') :
    s'.Good ↔ s.FreqOk e := by
  cases e with
  | boot => exact iff_of_true (good_boot h) trivial
  | changeAboxFreq rev uninit => exact good_changeAboxFreq hgood h
  | chooseAboxSubgFreq freq_num =>
    simp only [Step, step, Option.ite_none_left_eq_some, Option.some.injEq] at h
    obtain ⟨-, rfl⟩ := h
    exact iff_of_true (good_chooseAboxSubgFreq hgood) trivial
  | checkAboxEnvironment result =>
    simp only [Step, step, Option.ite_none_right_eq_some] at h
    exact iff_of_true (good_checkAboxEnvironment hgood h.2) trivial

/-- In a run from a start-up with any flash, both copies of the table are valid
    and every frame fits in every state exactly when every step meets
    `FreqOk`. -/
theorem freqTable_iff {s s' : FreqSystem} {tr : List (FreqEvent × FreqSystem)}
    (hboot : s.boot = some s') (h : Path Step s' tr) :
    Always Good s' tr ↔ AllSteps FreqOk s' tr :=
  h.always_iff (fun _ => True) Good (fun _ _ => trivial)
    (fun _ hgood hs => step_good_iff hgood hs) trivial (good_boot hboot)

/-- A device whose flash holds a table with the single channel 0. -/
def oneChannel : FreqSystem where
  flash := fun k => if k = dataFreqAddr + 2 then 1 else 0
  freqInfo := ⟨0, 0, fun _ => 0⟩
  freqNum := 0
  dicFreqNum := 0
  choosing := false
  copied := 0

/-- The start-up of `oneChannel`. -/
def oneChannelUp : FreqSystem :=
  { oneChannel with freqInfo := storedFreq oneChannel.flash }

theorem boot_oneChannel : oneChannel.boot = some oneChannelUp := by
  have hinit : initFreqInfo oneChannel.flash = (.rtEok, storedFreq oneChannel.flash) := by
    unfold initFreqInfo
    rw [if_pos (by decide +kernel), if_neg (by decide +kernel)]
  unfold boot
  simp only [hinit]
  rfl

/-- A frame with the channel 0 alone, and one with the channels 30 and 0. -/
def frame110 (num : Byte) (channel : Byte) : List Byte :=
  [0x23, 110, 0, 0, 0, 0, 8, 0, 0, 0, num, 0, channel, 0, 0, 0]

/-- A channel is chosen, it is found taken, and a frame repeats the table. -/
theorem freqTable_repeated : ∃ tr, exec step oneChannelUp
      [.chooseAboxSubgFreq 0, .checkAboxEnvironment .rtError,
        .changeAboxFreq (frame110 1 0) oneChannel.freqInfo] = some tr ∧
    Always Good oneChannelUp tr := by
  have hsome : (exec step oneChannelUp [.chooseAboxSubgFreq 0, .checkAboxEnvironment .rtError,
      .changeAboxFreq (frame110 1 0) oneChannel.freqInfo]).isSome = true := by decide +kernel
  obtain ⟨tr, htr⟩ := Option.isSome_iff_exists.1 hsome
  refine ⟨tr, htr, (freqTable_iff boot_oneChannel (exec_path id htr)).2 (exec_allSteps ?_ htr)⟩
  intro e he t
  simp only [List.mem_cons, List.not_mem_nil, or_false] at he
  rcases he with rfl | rfl | rfl
  · trivial
  · trivial
  · refine ⟨by decide, fun ⟨i, hi, hbad⟩ => ?_⟩
    have hi' : i < 1 := hi
    obtain rfl : i = 0 := by omega
    exact absurd hbad (by decide)

/-- A frame with two entries, one of them no frequency, is taken over while the
    stored table has one entry. -/
theorem table_out_of_range : oneChannel.boot = some oneChannelUp ∧
    ∃ tr, exec step oneChannelUp [.changeAboxFreq (frame110 2 30) oneChannel.freqInfo] = some tr ∧
      Path Step oneChannelUp tr ∧ ¬ Always Good oneChannelUp tr := by
  have hsome : (exec step oneChannelUp
      [.changeAboxFreq (frame110 2 30) oneChannel.freqInfo]).isSome = true := by decide +kernel
  obtain ⟨tr, htr⟩ := Option.isSome_iff_exists.1 hsome
  refine ⟨boot_oneChannel, tr, htr, exec_path id htr, fun halways => ?_⟩
  have hgood : Good _ := halways.last
  have hbad : ((exec step oneChannelUp
      [.changeAboxFreq (frame110 2 30) oneChannel.freqInfo]).map fun tr =>
        decide (last oneChannelUp tr).freqInfo.HasBadEntry) = some true := by decide +kernel
  rw [htr, Option.map_some, Option.some.injEq, decide_eq_true_eq] at hbad
  exact hgood.ram.not_bad hbad

end FreqSystem

end Abox.Radio
