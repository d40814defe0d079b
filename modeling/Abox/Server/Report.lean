import Abox.Server.Send

/-!
# What a frequency report says

`sendFreqPack` (`Abox/src/sub_G_A.c` lines 54–83) reports the current channel and
the table. The current channel is a `char` of `Cdma_Info`, and two bytes are
copied from it.

* `freqReported_iff`: the report decodes to the channel, the size and the entries
  of the table exactly when the field behind the channel, `serNetNum`, is zero.
* `getD_payload_entry`, `frameNum_report`: size and entries are always right.
-/

namespace Abox.Server

open Radio FreqSystem

/-- `stCdmaInfo` from `freq_num` on (`ctrl.h` lines 232–237). -/
structure StCdmaInfo where
  freq_num : Byte
  serNetNum : Byte
  serHeartTime : BitVec 32
  conErrPlace : Byte

/-- The memory from `&Cdma_Info.freq_num` on. -/
def StCdmaInfo.fromFreqNum (c : StCdmaInfo) : List Byte :=
  c.freq_num :: c.serNetNum :: (Layout.word.encode c.serHeartTime ++ [c.conErrPlace])

/-- The frame of `sendFreqPack`, which copies two bytes from there. -/
def freqReport (sysSetup : List Byte) (c : StCdmaInfo) (freqInfo : FreqInformation) : List Byte :=
  let f := sendFreqPack sysSetup (c.fromFreqNum.getD 0 0) (c.fromFreqNum.getD 1 0) freqInfo
  readN f.1 f.2

/-- `curr_freq` of a `TCMD_110` frame. -/
def frameCurr (rev : List Byte) : BitVec 16 := u16At rev sizeofStPackCmd

/-- By the layout of `TCMD_110_Info`, the frame says what the state is. -/
structure FreqReported (rev : List Byte) (c : StCdmaInfo) (freqInfo : FreqInformation) : Prop where
  curr : frameCurr rev = c.freq_num.setWidth 16
  num : frameNum rev = freqInfo.freqSaveNum
  entries : ∀ i < freqInfo.freqSaveNum.toNat, frameEntry rev i = freqInfo.entry i

/-! ## Reading the payload -/

/-- A field of a frame is read in its payload. -/
theorem u16At_frame {frame payload : List Byte} {k : ℕ}
    (h : (frame.drop sizeofStPackCmd).take payload.length = payload)
    (hk : k + 1 < payload.length) : u16At frame (sizeofStPackCmd + k) = u16At payload k := by
  have hget : ∀ i < payload.length, frame.getD (sizeofStPackCmd + i) 0 = payload.getD i 0 := by
    intro i hi
    rw [List.getD_eq_getElem?_getD, List.getD_eq_getElem?_getD, ← List.getElem?_drop, ← h,
      List.getElem?_take_of_lt hi]
  unfold u16At
  rw [hget k (by omega), Nat.add_assoc, hget (k + 1) hk]

theorem freqInfo_entry (freqInfo : FreqInformation) {i : ℕ} (h : i < rfFreqControlInte8Num) :
    u16At (freqCollectBytes freqInfo) (2 * i) = freqInfo.entry i := by
  have hdecode := Layout.decode_array Layout.half (freqCollectBytes freqInfo) ⟨i, h⟩
  unfold freqCollectBytes at hdecode
  rw [(Layout.half.array rfFreqControlInte8Num).decode_encode] at hdecode
  unfold FreqInformation.entry
  rw [dif_pos h, hdecode, Nat.mul_comm 2 i]
  set bs := freqCollectBytes freqInfo
  show bs.getD (i * 2 + 1) 0 ++ bs.getD (i * 2) 0 =
    ((bs.drop (i * 2)).take 2).getD 1 0 ++ ((bs.drop (i * 2)).take 2).getD 0 0
  simp only [List.getD_eq_getElem?_getD, List.getElem?_take, List.getElem?_drop, Nat.add_zero]
  rfl

theorem length_freqCollectBytes (freqInfo : FreqInformation) :
    (freqCollectBytes freqInfo).length = 2 * rfFreqControlInte8Num := by
  unfold freqCollectBytes
  rw [Layout.length_encode, Layout.size_array, Nat.mul_comm]
  rfl

/-- The entries follow the first four bytes. -/
theorem getD_payload_entry {freq_num serNetNum : Byte} {freqInfo : FreqInformation} {i : ℕ}
    (hn : freqInfo.freqSaveNum.toNat ≤ rfFreqControlInte8Num)
    (hi : i < freqInfo.freqSaveNum.toNat) :
    u16At (freqPayload freq_num serNetNum freqInfo) (4 + 2 * i) = freqInfo.entry i := by
  rw [← freqInfo_entry freqInfo (by omega)]
  have hget : ∀ k < 2 * freqInfo.freqSaveNum.toNat,
      (freqPayload freq_num serNetNum freqInfo).getD (4 + k) 0 =
        (freqCollectBytes freqInfo).getD k 0 := by
    intro k hk
    unfold freqPayload
    have hhead : ([freq_num, serNetNum] ++ Layout.half.encode freqInfo.freqSaveNum).length = 4 :=
      rfl
    rw [List.getD_append_right _ _ _ _ (by omega), hhead, Nat.add_sub_cancel_left,
      readN_of_le (by rw [length_freqCollectBytes]; omega), List.getD_eq_getElem?_getD,
      List.getElem?_take_of_lt hk, ← List.getD_eq_getElem?_getD]
  unfold u16At
  rw [hget (2 * i) (by omega), Nat.add_assoc, hget (2 * i + 1) (by omega)]

/-! ## The report -/

section

variable (sysSetup : List Byte) (c : StCdmaInfo) {freqInfo : FreqInformation}
  (hn : freqInfo.freqSaveNum.toNat ≤ rfFreqControlInte8Num)

include hn

theorem u16At_freqReport {k : ℕ} (hk : k + 1 < 4 + 2 * freqInfo.freqSaveNum.toNat) :
    u16At (freqReport sysSetup c freqInfo) (sizeofStPackCmd + k) =
      u16At (freqPayload c.freq_num c.serNetNum freqInfo) k := by
  have hfit : freqInfo.freqSaveNum.toNat ≤ 43 := Nat.le_trans hn (by decide)
  exact u16At_frame (frameOf_sendFreqPack sysSetup _ _ hfit).payload
    (by rwa [length_freqPayload])

/-- The next field is the high byte of the channel that is reported. -/
theorem frameCurr_report :
    frameCurr (freqReport sysSetup c freqInfo) = c.serNetNum ++ c.freq_num := by
  have hcurr := u16At_freqReport sysSetup c hn (k := 0) (by omega)
  rw [Nat.add_zero] at hcurr
  unfold frameCurr
  rw [hcurr]
  rfl

theorem frameNum_report : frameNum (freqReport sysSetup c freqInfo) = freqInfo.freqSaveNum := by
  have hnum := u16At_freqReport sysSetup c hn (k := 2) (by omega)
  exact hnum.trans (Layout.half.decode_encode freqInfo.freqSaveNum)

theorem frameEntry_report {i : ℕ} (hi : i < freqInfo.freqSaveNum.toNat) :
    frameEntry (freqReport sysSetup c freqInfo) i = freqInfo.entry i := by
  unfold frameEntry
  rw [Nat.add_assoc, u16At_freqReport sysSetup c hn (by omega), getD_payload_entry hn hi]

end

/-- Two bytes are the value of the low one exactly if the high one is zero. -/
theorem append_eq_setWidth_iff (hi lo : Byte) :
    (hi ++ lo : BitVec 16) = lo.setWidth 16 ↔ hi = 0 := by
  have happend : lo.setWidth 16 = (0 : Byte) ++ lo := BitVec.setWidth_eq_append (by decide)
  rw [happend]
  have hhigh (x : Byte) : (x ++ lo).extractLsb' 8 8 = x := by
    rw [BitVec.extractLsb'_append_eq_of_le (by omega)]
    exact BitVec.extractLsb'_eq_self
  constructor
  · intro h
    calc hi = (hi ++ lo).extractLsb' 8 8 := (hhigh hi).symm
      _ = ((0 : Byte) ++ lo).extractLsb' 8 8 := congrArg (fun x => x.extractLsb' 8 8) h
      _ = 0 := hhigh 0
  · rintro rfl
    rfl

/-- A report says what the state is exactly when `serNetNum` is zero. -/
theorem freqReported_iff (sysSetup : List Byte) (c : StCdmaInfo) (freqInfo : FreqInformation)
    (hn : freqInfo.freqSaveNum.toNat ≤ rfFreqControlInte8Num) :
    FreqReported (freqReport sysSetup c freqInfo) c freqInfo ↔ c.serNetNum = 0 := by
  have hcurr := frameCurr_report sysSetup c hn
  rw [← append_eq_setWidth_iff c.serNetNum c.freq_num, ← hcurr]
  constructor
  · exact fun h => h.curr
  · intro h
    exact ⟨h, frameNum_report sysSetup c hn, fun i hi => frameEntry_report sysSetup c hn hi⟩

/-- A table of two channels, the first of them in use. -/
def twoChannels : FreqInformation :=
  { preFreq := 0, freqSaveNum := 2, freqCollect := fun i => if i.val = 0 then 4 else 5 }

theorem freqReported_iff_two :
    (2 : BitVec 16).toNat ≤ rfFreqControlInte8Num ∧
      FreqReported (freqReport [] ⟨4, 0, 7, 0⟩ twoChannels) ⟨4, 0, 7, 0⟩ twoChannels :=
  ⟨by decide, (freqReported_iff [] ⟨4, 0, 7, 0⟩ twoChannels (by decide)).2 rfl⟩

/-- With the second server in use, channel 4 is reported as 260. -/
theorem not_freqReported :
    frameCurr (freqReport [] ⟨4, 1, 7, 0⟩ twoChannels) = 260 ∧
      ¬ FreqReported (freqReport [] ⟨4, 1, 7, 0⟩ twoChannels) ⟨4, 1, 7, 0⟩ twoChannels := by
  have hcurr : frameCurr (freqReport [] ⟨4, 1, 7, 0⟩ twoChannels) = 260 :=
    frameCurr_report [] ⟨4, 1, 7, 0⟩ (show twoChannels.freqSaveNum.toNat ≤ _ by decide)
  refine ⟨hcurr, fun h => ?_⟩
  have h4 : (260 : BitVec 16) = 4 := hcurr.symm.trans h.curr
  exact absurd h4 (by decide)

end Abox.Server
