import Abox.Radio.Fifo
import Abox.Radio.Registry
import Abox.Radio.Removal

/-!
# Assessing the Cboxes

Model of `assessCboxState` (`Abox/src/sub_G_A.c` lines 884–960), which the radio
thread calls after every pass over the Cboxes. It removes Cboxes from the array that
it walks over; its index is a `char`, stepped back after a removal, and its bound is
read before the first one. What it changes of a report it changes in a local copy.

* `assessOne_eq_none_iff`: the three criteria of a removal.
* `assess_ends_iff`: the loop ends, with all copies of `removeCbox` inside its buffer,
  exactly if the records of the Cboxes that are removed fit.
* `assessCboxState_iff`: for every registry that can be reached.
-/

namespace Abox.Radio

open Segments Loops Runs

/-! ## Model -/

/-- `POLL_TIME_OUT` (`sub_G.h` lines 15–27): `20 * CBOX_MAX_NUM` packages of 6 ms, one
    tick being a millisecond. -/
def pollTimeOut : ℕ := 20 * cboxMaxNum * 6

/-- `PACKAGE_COUNT_START_NUM`, `PACKAGE_COUNT_START_MAX_NUM` and
    `PACKAGE_COUNT_CRITICAL_VALUE` (`abox.h` lines 33–35). -/
def packageCountStartNum : ℕ := 10000
def packageCountStartMaxNum : ℕ := 20000
def packageCountCriticalValue : ℕ := 80

/-- `packSendErr * 100 / packSendNum`, in 32 bits. -/
def CboxAssessmentReport.percent (r : CboxAssessmentReport) : ℕ :=
  (r.packSendErr * 100 / r.packSendNum).toNat

/-- `packSendNum = 0`, `packSendErr = 0`. -/
def CboxAssessmentReport.restart (r : CboxAssessmentReport) : CboxAssessmentReport :=
  { r with packSendNum := 0, packSendErr := 0 }

/-- Lines 911–938 on the local copy of the report: `none` if the Cbox is removed. -/
def assessCount (cboxInfoReport : CboxAssessmentReport) : Option CboxAssessmentReport :=
  if cboxInfoReport.packSendNum < cboxInfoReport.packSendErr then some cboxInfoReport.restart
  else if packageCountStartNum < cboxInfoReport.packSendNum.toNat ∧
      packageCountCriticalValue < cboxInfoReport.percent then none
  else if packageCountStartMaxNum < cboxInfoReport.packSendNum.toNat then
    some cboxInfoReport.restart
  else some cboxInfoReport

/-- Lines 942–953; `tick1` and `tick2` are what `rt_tick_get` returns. -/
def assessTick (tick1 tick2 : BitVec 32) (cboxInfoReport : CboxAssessmentReport) :
    Option CboxAssessmentReport :=
  if cboxInfoReport.errTick2 < cboxInfoReport.errTick1 then
    some { cboxInfoReport with errTick1 := tick1, errTick2 := tick2 }
  else if pollTimeOut < (cboxInfoReport.errTick2 - cboxInfoReport.errTick1).toNat then none
  else some cboxInfoReport

/-- The body of the loop but for the removal. -/
def assessOne (tick1 tick2 : BitVec 32) (cboxInfoReport : CboxAssessmentReport) :
    Option CboxAssessmentReport :=
  if cboxInfoReport.packSendNum = cboxInfoReport.packSendErr ∧
      10 < cboxInfoReport.packSendNum.toNat ∧ cboxInfoReport.packSendNum.toNat < 20 then none
  else (assessCount cboxInfoReport).bind (assessTick tick1 tick2)

/-- A `char` compared with an `rt_uint32_t`. -/
def charValue (charSigned : Bool) (i : BitVec 8) : ℕ :=
  if charSigned then (i.signExtend 32).toNat else i.toNat

/-- The Cbox table, the index, and the reports that have been judged. -/
structure Assessing where
  aboxInfo : AboxInformation
  i : BitVec 8
  judged : List CboxAssessmentReport

section

-- the signedness of `char`, and the calls of `rt_tick_get`, two for each pass
variable (charSigned : Bool) (rtTickGet : ℕ → BitVec 32)

/-- `i < cboxOnlineNum`, with the number read before the loop. -/
def Assessing.goesOn (cboxOnlineNum : ℕ) (a : Assessing) : Bool :=
  decide (charValue charSigned a.i < cboxOnlineNum)

/-- One pass: `none` if a copy of `removeCbox` runs over the end of `tempBuff`. -/
def Assessing.pass (fuel : ℕ) (a : Assessing) : Option Assessing :=
  let cboxInfoReport := (a.aboxInfo.cboxInfo a.i.toNat).cboxAssessReport
  let judged := a.judged ++ [cboxInfoReport]
  match assessOne (rtTickGet (2 * a.judged.length)) (rtTickGet (2 * a.judged.length + 1))
      cboxInfoReport with
  | none =>
    -- `i--`, and `i++` of the loop
    (removeCboxIn fuel a.aboxInfo a.i.toNat).map fun s => ⟨s, a.i - 1 + 1, judged⟩
  | some _ => some ⟨a.aboxInfo, a.i + 1, judged⟩

/-- `assessCboxState`: the Cbox table afterwards, and the reports that were judged. -/
def assessCboxState (fuel : ℕ) (s : AboxInformation) :
    Option (AboxInformation × List CboxAssessmentReport) :=
  (whileLoop (Assessing.goesOn charSigned s.cboxOnlineNum) (Assessing.pass rtTickGet fuel) fuel
    ⟨s, 0, []⟩).map fun a => (a.aboxInfo, a.judged)

end

/-! ## The criteria -/

/-- The three criteria: between 10 and 20 packages, all of them lost; more than 80 %
    lost of more than 10000; no answer for too long. -/
def Removable (r : CboxAssessmentReport) : Prop :=
  (r.packSendNum = r.packSendErr ∧ 10 < r.packSendNum.toNat ∧ r.packSendNum.toNat < 20) ∨
  (r.packSendErr ≤ r.packSendNum ∧ packageCountStartNum < r.packSendNum.toNat ∧
    packageCountCriticalValue < r.percent) ∨
  (r.errTick1 ≤ r.errTick2 ∧ pollTimeOut < (r.errTick2 - r.errTick1).toNat)

instance (r : CboxAssessmentReport) : Decidable (Removable r) :=
  inferInstanceAs (Decidable (_ ∨ _ ∨ _))

theorem assessTick_eq_none_iff (tick1 tick2 : BitVec 32) (r : CboxAssessmentReport) :
    assessTick tick1 tick2 r = none ↔
      r.errTick1 ≤ r.errTick2 ∧ pollTimeOut < (r.errTick2 - r.errTick1).toNat := by
  unfold assessTick
  rw [← BitVec.not_lt]
  split_ifs with hlt hlate
  · exact iff_of_false nofun fun h => h.1 hlt
  · exact iff_of_true rfl ⟨hlt, hlate⟩
  · exact iff_of_false nofun fun h => hlate h.2

/-- The restart of the counters does not touch the ticks. -/
theorem assessCount_ticks {r r' : CboxAssessmentReport} (h : assessCount r = some r') :
    r'.errTick1 = r.errTick1 ∧ r'.errTick2 = r.errTick2 := by
  unfold assessCount at h
  split_ifs at h
  all_goals
    obtain rfl := Option.some.inj h
    exact ⟨rfl, rfl⟩

theorem assessCount_eq_none_iff (r : CboxAssessmentReport) : assessCount r = none ↔
    r.packSendErr ≤ r.packSendNum ∧ packageCountStartNum < r.packSendNum.toNat ∧
      packageCountCriticalValue < r.percent := by
  unfold assessCount
  rw [← BitVec.not_lt]
  split_ifs with hlt hbad hmax
  · exact iff_of_false nofun fun h => h.1 hlt
  · exact iff_of_true rfl ⟨hlt, hbad⟩
  · exact iff_of_false nofun fun h => hbad h.2
  · exact iff_of_false nofun fun h => hbad h.2

theorem assessOne_eq_none_iff (tick1 tick2 : BitVec 32) (r : CboxAssessmentReport) :
    assessOne tick1 tick2 r = none ↔ Removable r := by
  unfold assessOne Removable
  by_cases hfirst : r.packSendNum = r.packSendErr ∧ 10 < r.packSendNum.toNat ∧
      r.packSendNum.toNat < 20
  · rw [if_pos hfirst]
    exact iff_of_true rfl (Or.inl hfirst)
  · rw [if_neg hfirst, or_iff_right hfirst, ← assessCount_eq_none_iff, Option.bind_eq_none_iff]
    rcases hcount : assessCount r with - | r'
    · exact iff_of_true (fun _ h => by cases h) (Or.inl rfl)
    · obtain ⟨h1, h2⟩ := assessCount_ticks hcount
      rw [or_iff_right nofun, ← h1, ← h2, ← assessTick_eq_none_iff tick1 tick2]
      exact ⟨fun h => h r' rfl, fun h _ heq => Option.some.inj heq ▸ h⟩

/-- A report that has been reset is no reason for a removal. -/
theorem not_removable_reset : ¬ Removable ⟨0, 0, 0, 0, 0, 0⟩ := by decide

/-! ## The Cboxes as a list -/

/-- A Cbox and the bytes that belong to it. -/
structure CboxState where
  devidCollection : Fin devidTypeNum → BitVec 32
  packSendInfo : CboxPackageSendInfor
  cboxAssessReport : CboxAssessmentReport
  waiting : List (List Byte)
  kept : List (List Byte)

/-- The Cbox in slot `j`. -/
def cboxState (s : AboxInformation) (j : ℕ) : CboxState where
  devidCollection := (s.cboxInfo j).devidCollection
  packSendInfo := (s.cboxInfo j).packSendInfo
  cboxAssessReport := (s.cboxInfo j).cboxAssessReport
  waiting := waiting s j
  kept := kept s j

/-- The online Cboxes in the order of their slots. -/
def cboxes (s : AboxInformation) : List CboxState := (List.range s.cboxOnlineNum).map (cboxState s)

/-- The records of the Cbox fit into the `tempBuff` of `removeCbox`. -/
def CboxState.Fits (c : CboxState) : Prop :=
  (∀ n ∈ c.kept.map List.length, n ≤ buffLen ∨ subgDataPoolSize ≤ n) ∧
    ∀ n ∈ c.waiting.map List.length, n ≤ buffLen

/-- The Cbox meets none of the criteria. -/
def CboxState.stays (c : CboxState) : Bool := decide (¬ Removable c.cboxAssessReport)

@[simp] theorem length_cboxes (s : AboxInformation) : (cboxes s).length = s.cboxOnlineNum := by
  unfold cboxes
  rw [List.length_map, List.length_range]

theorem getElem_cboxes (s : AboxInformation) {j : ℕ} (hj : j < (cboxes s).length) :
    (cboxes s)[j] = cboxState s j := by
  simp only [cboxes, List.getElem_map, List.getElem_range]

theorem Removed.cboxes {s t : AboxInformation} {i : ℕ} (h : Removed s t i)
    (hi : i < s.cboxOnlineNum) : cboxes t = (cboxes s).eraseIdx i := by
  have hn := h.online
  have hlen : ((Radio.cboxes s).eraseIdx i).length = s.cboxOnlineNum - 1 := by
    rw [List.length_eraseIdx_of_lt (by rw [length_cboxes]; exact hi), length_cboxes]
  apply List.ext_getElem
  · rw [hlen, length_cboxes, hn]
  · intro j hj hj'
    have hjt : j < t.cboxOnlineNum := by
      rw [length_cboxes] at hj
      exact hj
    have hstate : cboxState t j = cboxState s (skip i j) := by
      have hid := h.identity j hjt
      simp only [Radio.identity, Prod.mk.injEq] at hid
      obtain ⟨h1, h2, h3⟩ := hid
      unfold cboxState
      rw [h1, h2, h3, h.waiting j hjt, h.kept j hjt]
    rw [getElem_cboxes, hstate, List.getElem_eraseIdx]
    unfold skip
    split_ifs
    · exact (getElem_cboxes ..).symm
    · exact (getElem_cboxes ..).symm

/-! ## The loop -/

/-- In the range of an online index, `char` may be signed or not. -/
theorem charValue_eq (charSigned : Bool) {i : BitVec 8} (h : i.toNat ≤ cboxMaxNum) :
    charValue charSigned i = i.toNat := by
  have hmsb : i.msb = false := by
    rw [BitVec.msb_eq_false_iff_two_mul_lt]
    have hmax : cboxMaxNum = 50 := rfl
    omega
  unfold charValue
  split_ifs
  · rw [BitVec.signExtend_eq_setWidth_of_msb_false hmsb, BitVec.toNat_setWidth]
    omega
  · rfl

theorem toNat_succ {i : BitVec 8} (h : i.toNat < cboxMaxNum) : (i + 1).toNat = i.toNat + 1 := by
  have hmax : cboxMaxNum = 50 := rfl
  rw [BitVec.toNat_add]
  show (i.toNat + 1) % 256 = i.toNat + 1
  omega

/-- `p` passes have been made over the Cboxes that were online in `s`: those that stay
    are at the front, those that have not been judged follow, and the slots behind
    them, where the last passes go, have been reset. -/
structure Judging (s : AboxInformation) (p : ℕ) (a : Assessing) : Prop where
  queuesPacked : QueuesPacked a.aboxInfo
  savedPacked : SavedPacked a.aboxInfo
  index : a.i.toNat = (((cboxes s).take p).filter CboxState.stays).length + (p - s.cboxOnlineNum)
  index_le : a.i.toNat ≤ s.cboxOnlineNum
  online : cboxes a.aboxInfo =
    ((cboxes s).take p).filter CboxState.stays ++ (cboxes s).drop p
  judged : a.judged = ((cboxes s).take p).map CboxState.cboxAssessReport ++
    List.replicate (p - s.cboxOnlineNum) ⟨0, 0, 0, 0, 0, 0⟩
  reset : ∀ j, a.aboxInfo.cboxOnlineNum ≤ j → j < s.cboxOnlineNum →
    (a.aboxInfo.cboxInfo j).cboxAssessReport = ⟨0, 0, 0, 0, 0, 0⟩

theorem judging_start {s : AboxInformation} (hq : QueuesPacked s) (hs : SavedPacked s) :
    Judging s 0 ⟨s, 0, []⟩ := by
  refine ⟨hq, hs, ?_, Nat.zero_le _, ?_, ?_, fun j hj hjn => absurd hjn (Nat.not_lt.2 hj)⟩
  · rw [List.take_zero, List.filter_nil, List.length_nil, Nat.zero_sub]
    rfl
  · rw [List.take_zero, List.filter_nil, List.nil_append, List.drop_zero]
  · rw [List.take_zero, List.map_nil, Nat.zero_sub]
    rfl

section

variable {s : AboxInformation} {p : ℕ} {a : Assessing}

/-- The Cbox that is judged next. -/
theorem Judging.current (h : Judging s p a) (hp : p < s.cboxOnlineNum) :
    a.i.toNat < a.aboxInfo.cboxOnlineNum ∧ cboxState a.aboxInfo a.i.toNat = cboxState s p := by
  have hidx := h.index
  rw [Nat.sub_eq_zero_of_le (Nat.le_of_lt hp), Nat.add_zero] at hidx
  have hlen := congrArg List.length h.online
  rw [length_cboxes, List.length_append, List.length_drop, length_cboxes, ← hidx] at hlen
  have hi : a.i.toNat < a.aboxInfo.cboxOnlineNum := by omega
  refine ⟨hi, ?_⟩
  have hget := getElem_cboxes a.aboxInfo (j := a.i.toNat) (by rw [length_cboxes]; exact hi)
  rw [← hget]
  simp only [h.online, hidx]
  rw [List.getElem_append_right le_rfl]
  simp only [Nat.sub_self, List.getElem_drop, Nat.add_zero]
  exact getElem_cboxes ..

/-- A pass that judges no Cbox finds a slot that has been reset. -/
theorem Judging.past (h : Judging s p a) (hp : s.cboxOnlineNum ≤ p)
    (hi : a.i.toNat < s.cboxOnlineNum) :
    (a.aboxInfo.cboxInfo a.i.toNat).cboxAssessReport = ⟨0, 0, 0, 0, 0, 0⟩ := by
  have hlen := congrArg List.length h.online
  rw [length_cboxes, List.length_append, List.length_drop, length_cboxes] at hlen
  have hidx := h.index
  exact h.reset _ (by omega) hi

/-! ### One pass -/

variable (rtTickGet : ℕ → BitVec 32) (fuel : ℕ)

theorem pass_of_removable
    (h : Removable (a.aboxInfo.cboxInfo a.i.toNat).cboxAssessReport) :
    a.pass rtTickGet fuel = (removeCboxIn fuel a.aboxInfo a.i.toNat).map fun t =>
      ⟨t, a.i, a.judged ++ [(a.aboxInfo.cboxInfo a.i.toNat).cboxAssessReport]⟩ := by
  simp only [Assessing.pass, (assessOne_eq_none_iff _ _ _).2 h, sub_add_cancel]

theorem pass_of_not (h : ¬ Removable (a.aboxInfo.cboxInfo a.i.toNat).cboxAssessReport) :
    a.pass rtTickGet fuel = some ⟨a.aboxInfo, a.i + 1,
      a.judged ++ [(a.aboxInfo.cboxInfo a.i.toNat).cboxAssessReport]⟩ := by
  obtain ⟨r, hr⟩ := Option.ne_none_iff_exists'.1 fun hnone =>
    h ((assessOne_eq_none_iff (rtTickGet (2 * a.judged.length))
      (rtTickGet (2 * a.judged.length + 1)) _).1 hnone)
  simp only [Assessing.pass, hr]

theorem take_succ_cboxes (hp : p < s.cboxOnlineNum) :
    (cboxes s).take (p + 1) = (cboxes s).take p ++ [cboxState s p] := by
  have hlt : p < (cboxes s).length := by rw [length_cboxes]; exact hp
  rw [List.take_succ_eq_append_getElem hlt, getElem_cboxes]

theorem drop_cboxes (hp : p < s.cboxOnlineNum) :
    (cboxes s).drop p = cboxState s p :: (cboxes s).drop (p + 1) := by
  have hlt : p < (cboxes s).length := by rw [length_cboxes]; exact hp
  rw [List.drop_eq_getElem_cons hlt, getElem_cboxes]

/-- A Cbox is judged and stays. -/
theorem Judging.stays (h : Judging s p a) (hn : s.cboxOnlineNum ≤ cboxMaxNum)
    (hp : p < s.cboxOnlineNum) (hstay : ¬ Removable (cboxState s p).cboxAssessReport) :
    Judging s (p + 1) ⟨a.aboxInfo, a.i + 1, a.judged ++ [(cboxState s p).cboxAssessReport]⟩ := by
  have hidx := h.index
  have hle := List.length_filter_le CboxState.stays ((cboxes s).take p)
  rw [List.length_take, length_cboxes] at hle
  have hfilter : ((cboxes s).take (p + 1)).filter CboxState.stays =
      ((cboxes s).take p).filter CboxState.stays ++ [cboxState s p] := by
    rw [take_succ_cboxes hp, List.filter_append, List.filter_singleton]
    unfold CboxState.stays
    rw [decide_eq_true hstay]
    rfl
  have hnone : p + 1 - s.cboxOnlineNum = 0 := Nat.sub_eq_zero_of_le hp
  have hnone' : p - s.cboxOnlineNum = 0 := Nat.sub_eq_zero_of_le (Nat.le_of_lt hp)
  have hi : (a.i + 1).toNat = a.i.toNat + 1 := toNat_succ (by omega)
  refine ⟨h.queuesPacked, h.savedPacked, ?_, ?_, ?_, ?_, h.reset⟩
  · rw [hfilter, List.length_append, List.length_singleton, hnone]
    show (a.i + 1).toNat = _
    omega
  · show (a.i + 1).toNat ≤ _
    omega
  · rw [hfilter, List.append_assoc, List.singleton_append, ← drop_cboxes hp]
    exact h.online
  · show a.judged ++ _ = _
    rw [h.judged, take_succ_cboxes hp, List.map_append, hnone, hnone', List.replicate_zero,
      List.append_nil, List.append_nil]
    rfl

/-- A Cbox is judged and removed. -/
theorem Judging.removed (h : Judging s p a) (hp : p < s.cboxOnlineNum)
    (hrem : Removable (cboxState s p).cboxAssessReport) {t : AboxInformation}
    (ht : Removed a.aboxInfo t a.i.toNat) :
    Judging s (p + 1) ⟨t, a.i, a.judged ++ [(cboxState s p).cboxAssessReport]⟩ := by
  have hidx := h.index
  obtain ⟨hi, -⟩ := h.current hp
  have hfilter : ((cboxes s).take (p + 1)).filter CboxState.stays =
      ((cboxes s).take p).filter CboxState.stays := by
    rw [take_succ_cboxes hp, List.filter_append, List.filter_singleton]
    unfold CboxState.stays
    rw [decide_eq_false (fun hnot => hnot hrem)]
    exact List.append_nil _
  have hnone : p + 1 - s.cboxOnlineNum = 0 := Nat.sub_eq_zero_of_le hp
  have hnone' : p - s.cboxOnlineNum = 0 := Nat.sub_eq_zero_of_le (Nat.le_of_lt hp)
  rw [hnone', Nat.add_zero] at hidx
  refine ⟨ht.queuesPacked, ht.savedPacked, ?_, h.index_le, ?_, ?_, fun j hj hjn => ?_⟩
  · rw [hfilter, hnone]
    exact hidx
  · show cboxes t = _
    rw [ht.cboxes hi, h.online, hfilter, hidx, List.eraseIdx_append_of_length_le le_rfl,
      Nat.sub_self, drop_cboxes hp]
    rfl
  · show a.judged ++ _ = _
    rw [h.judged, take_succ_cboxes hp, List.map_append, hnone, hnone', List.replicate_zero,
      List.append_nil, List.append_nil]
    rfl
  · change t.cboxOnlineNum ≤ j at hj
    show (t.cboxInfo j).cboxAssessReport = _
    by_cases hlast : j = t.cboxOnlineNum
    · rw [hlast]
      exact ht.closed.2
    · have hn := ht.online
      have hbehind : a.aboxInfo.cboxOnlineNum ≤ j := by omega
      rw [ht.beyond j hbehind]
      exact h.reset j hbehind hjn

/-- A slot that has been reset is looked at. -/
theorem Judging.idle (h : Judging s p a) (hn : s.cboxOnlineNum ≤ cboxMaxNum)
    (hp : s.cboxOnlineNum ≤ p) (hi : a.i.toNat < s.cboxOnlineNum) :
    Judging s (p + 1) ⟨a.aboxInfo, a.i + 1, a.judged ++ [⟨0, 0, 0, 0, 0, 0⟩]⟩ := by
  have hidx := h.index
  have htake : ∀ q, s.cboxOnlineNum ≤ q → (cboxes s).take q = cboxes s := fun q hq =>
    List.take_of_length_le (by rw [length_cboxes]; exact hq)
  have hdrop : ∀ q, s.cboxOnlineNum ≤ q → (cboxes s).drop q = [] := fun q hq =>
    List.drop_eq_nil_of_le (by rw [length_cboxes]; exact hq)
  have hsucc : (a.i + 1).toNat = a.i.toNat + 1 := toNat_succ (by omega)
  have hmore : p + 1 - s.cboxOnlineNum = p - s.cboxOnlineNum + 1 := by omega
  rw [htake p hp] at hidx
  refine ⟨h.queuesPacked, h.savedPacked, ?_, ?_, ?_, ?_, h.reset⟩
  · rw [htake _ (by omega)]
    show (a.i + 1).toNat = _
    omega
  · show (a.i + 1).toNat ≤ _
    omega
  · have honline := h.online
    rw [htake p hp, hdrop p hp] at honline
    rw [htake _ (by omega), hdrop _ (by omega)]
    exact honline
  · show a.judged ++ _ = _
    rw [h.judged, htake p hp, htake _ (by omega), hmore, List.replicate_succ', List.append_assoc]

theorem pass_mono {fuel' : ℕ} {a' : Assessing} (hf : fuel ≤ fuel')
    (h : a.pass rtTickGet fuel = some a') : a.pass rtTickGet fuel' = some a' := by
  by_cases hrem : Removable (a.aboxInfo.cboxInfo a.i.toNat).cboxAssessReport
  · rw [pass_of_removable rtTickGet _ hrem] at h ⊢
    obtain ⟨t, ht, rfl⟩ := Option.map_eq_some_iff.1 h
    exact Option.map_eq_some_iff.2 ⟨t, removeCboxIn_mono hf ht, rfl⟩
  · rw [pass_of_not rtTickGet _ hrem] at h ⊢
    exact h

/-- Every pass judges the Cbox that is next. -/
theorem Judging.step (h : Judging s p a) (hn : s.cboxOnlineNum ≤ cboxMaxNum)
    (hi : a.i.toNat < s.cboxOnlineNum) {a' : Assessing}
    (hpass : a.pass rtTickGet fuel = some a') : Judging s (p + 1) a' := by
  by_cases hp : p < s.cboxOnlineNum
  · obtain ⟨hlt, hstate⟩ := h.current hp
    have hreport : (a.aboxInfo.cboxInfo a.i.toNat).cboxAssessReport =
        (cboxState s p).cboxAssessReport := congrArg CboxState.cboxAssessReport hstate
    by_cases hrem : Removable (a.aboxInfo.cboxInfo a.i.toNat).cboxAssessReport
    · rw [pass_of_removable rtTickGet _ hrem] at hpass
      obtain ⟨t, ht, rfl⟩ := Option.map_eq_some_iff.1 hpass
      rw [hreport] at hrem ⊢
      exact h.removed hp hrem
        (removeCbox_removed hlt h.queuesPacked h.savedPacked (removeCbox_of_in ht))
    · rw [pass_of_not rtTickGet _ hrem] at hpass
      obtain rfl := Option.some.inj hpass
      rw [hreport] at hrem ⊢
      exact h.stays hn hp hrem
  · have hpast := Nat.le_of_not_lt hp
    have hreport := h.past hpast hi
    rw [pass_of_not rtTickGet _ (by rw [hreport]; exact not_removable_reset)] at hpass
    obtain rfl := Option.some.inj hpass
    rw [hreport]
    exact h.idle hn hpast hi

/-- A pass ends, with all copies inside, exactly if what it removes fits. -/
theorem Judging.pass_iff (h : Judging s p a) (hi : a.i.toNat < s.cboxOnlineNum) :
    (∃ fuel a', a.pass rtTickGet fuel = some a') ↔
      (p < s.cboxOnlineNum → Removable (cboxState s p).cboxAssessReport →
        (cboxState s p).Fits) := by
  by_cases hp : p < s.cboxOnlineNum
  · obtain ⟨hlt, hstate⟩ := h.current hp
    rw [← hstate]
    by_cases hrem : Removable (cboxState a.aboxInfo a.i.toNat).cboxAssessReport
    · have hfits : (cboxState a.aboxInfo a.i.toNat).Fits ↔
          ∃ fuel t, removeCboxIn fuel a.aboxInfo a.i.toNat = some t :=
        ((removeCboxIn_iff hlt h.queuesPacked h.savedPacked).trans
          (fitsTempBuff_iff hlt h.queuesPacked h.savedPacked)).symm
      rw [hfits]
      constructor
      · rintro ⟨fuel, a', ha'⟩ - -
        rw [pass_of_removable rtTickGet _ hrem] at ha'
        obtain ⟨t, ht, -⟩ := Option.map_eq_some_iff.1 ha'
        exact ⟨fuel, t, ht⟩
      · intro hall
        obtain ⟨fuel, t, ht⟩ := hall hp hrem
        have hpass := pass_of_removable rtTickGet fuel hrem
        rw [ht, Option.map_some] at hpass
        exact ⟨fuel, _, hpass⟩
    · exact iff_of_true ⟨0, _, pass_of_not rtTickGet 0 hrem⟩ fun _ h' => absurd h' hrem
  · have hrem : ¬ Removable (a.aboxInfo.cboxInfo a.i.toNat).cboxAssessReport := by
      rw [h.past (Nat.le_of_not_lt hp) hi]
      exact not_removable_reset
    exact iff_of_true ⟨0, _, pass_of_not rtTickGet 0 hrem⟩ fun h' => absurd h' hp

/-! ### The whole loop -/

variable (charSigned : Bool)

theorem Judging.goesOn_iff (h : Judging s p a) (hn : s.cboxOnlineNum ≤ cboxMaxNum) :
    a.goesOn charSigned s.cboxOnlineNum = true ↔ a.i.toNat < s.cboxOnlineNum := by
  unfold Assessing.goesOn
  rw [decide_eq_true_iff, charValue_eq charSigned (h.index_le.trans hn)]

/-- The loop ends, with all copies inside, exactly if every Cbox that it removes from
    here on fits. -/
theorem Judging.ends_iff (h : Judging s p a) (hn : s.cboxOnlineNum ≤ cboxMaxNum) :
    (∃ a' fuel, whileLoop (Assessing.goesOn charSigned s.cboxOnlineNum)
      (Assessing.pass rtTickGet fuel) fuel a = some a') ↔
      ∀ k, p ≤ k → k < s.cboxOnlineNum → Removable (cboxState s k).cboxAssessReport →
        (cboxState s k).Fits := by
  induction hd : 2 * s.cboxOnlineNum - p using Nat.strong_induction_on generalizing p a with
  | _ d ih =>
  have hidx := h.index
  by_cases hi : a.i.toNat < s.cboxOnlineNum
  · have hcond := (h.goesOn_iff charSigned hn).2 hi
    have hnext : ∀ fuel q, a.pass rtTickGet fuel = some q →
        ((∃ a' fuel, whileLoop (Assessing.goesOn charSigned s.cboxOnlineNum)
          (Assessing.pass rtTickGet fuel) fuel q = some a') ↔
          ∀ k, p + 1 ≤ k → k < s.cboxOnlineNum → Removable (cboxState s k).cboxAssessReport →
            (cboxState s k).Fits) :=
      fun fuel q hq => ih _ (by omega) (h.step rtTickGet fuel hn hi hq) rfl
    have hyields : ∀ a', (∃ fuel, whileLoop (Assessing.goesOn charSigned s.cboxOnlineNum)
        (Assessing.pass rtTickGet fuel) fuel a = some a') ↔
        ∃ fuel q, a.pass rtTickGet fuel = some q ∧
          ∃ fuel, whileLoop (Assessing.goesOn charSigned s.cboxOnlineNum)
            (Assessing.pass rtTickGet fuel) fuel q = some a' :=
      fun _ => @whileLoop_yields_iff _ _ (fun fuel a => a.pass rtTickGet fuel)
        (fun _ _ _ _ hf hq => pass_mono rtTickGet _ hf hq) _ _ hcond
    constructor
    · rintro ⟨a', ha'⟩ k hk hkn hrem
      obtain ⟨fuel, q, hq, hrest⟩ := (hyields a').1 ha'
      by_cases hkp : k = p
      · subst hkp
        exact (h.pass_iff rtTickGet hi).1 ⟨fuel, q, hq⟩ hkn hrem
      · exact (hnext fuel q hq).1 ⟨a', hrest⟩ k (by omega) hkn hrem
    · intro hall
      obtain ⟨fuel, q, hq⟩ := (h.pass_iff rtTickGet hi).2 fun hp => hall p le_rfl hp
      obtain ⟨a', hrest⟩ := (hnext fuel q hq).2 fun k hk => hall k (by omega)
      exact ⟨a', (hyields a').2 ⟨fuel, q, hq, hrest⟩⟩
  · -- the index has passed the old number online, so every Cbox has been judged
    have hcond : a.goesOn charSigned s.cboxOnlineNum = false :=
      Bool.eq_false_iff.2 fun hgo => hi ((h.goesOn_iff charSigned hn).1 hgo)
    have hle := List.length_filter_le CboxState.stays ((cboxes s).take p)
    rw [List.length_take, length_cboxes] at hle
    exact iff_of_true ⟨a, 0, whileLoop_of_not hcond 0⟩ fun k hk hkn => by omega

end

/-- What `assessCboxState` has done to `s`: the Cboxes that meet no criterion are left,
    in their order; each Cbox has been judged once, by its own report, and then as
    many slots as have been closed. -/
structure Assessed (s t : AboxInformation) (judged : List CboxAssessmentReport) : Prop where
  survivors : cboxes t = (cboxes s).filter CboxState.stays
  judged : judged = (cboxes s).map CboxState.cboxAssessReport ++
    List.replicate (s.cboxOnlineNum - t.cboxOnlineNum) ⟨0, 0, 0, 0, 0, 0⟩
  queuesPacked : QueuesPacked t
  savedPacked : SavedPacked t

section

variable {s : AboxInformation} (charSigned : Bool) (rtTickGet : ℕ → BitVec 32)

theorem assess_ends_iff (hq : QueuesPacked s) (hs : SavedPacked s)
    (hn : s.cboxOnlineNum ≤ cboxMaxNum) :
    (∃ t judged fuel, assessCboxState charSigned rtTickGet fuel s = some (t, judged)) ↔
      ∀ c ∈ cboxes s, Removable c.cboxAssessReport → c.Fits := by
  have hends := (judging_start hq hs).ends_iff rtTickGet charSigned hn
  have hall : (∀ c ∈ cboxes s, Removable c.cboxAssessReport → c.Fits) ↔
      ∀ k, 0 ≤ k → k < s.cboxOnlineNum → Removable (cboxState s k).cboxAssessReport →
        (cboxState s k).Fits := by
    unfold cboxes
    rw [List.forall_mem_map]
    simp only [List.mem_range, Nat.zero_le, true_implies]
  rw [hall, ← hends]
  constructor
  · rintro ⟨t, judged, fuel, h⟩
    obtain ⟨a, ha, -⟩ := Option.map_eq_some_iff.1 h
    exact ⟨a, fuel, ha⟩
  · rintro ⟨a, fuel, ha⟩
    exact ⟨_, _, fuel, Option.map_eq_some_iff.2 ⟨a, ha, rfl⟩⟩

theorem assessed_of_eq (hq : QueuesPacked s) (hs : SavedPacked s)
    (hn : s.cboxOnlineNum ≤ cboxMaxNum) {fuel : ℕ} {t : AboxInformation}
    {judged : List CboxAssessmentReport}
    (h : assessCboxState charSigned rtTickGet fuel s = some (t, judged)) : Assessed s t judged := by
  obtain ⟨a, ha, heq⟩ := Option.map_eq_some_iff.1 h
  obtain ⟨rfl, rfl⟩ := Prod.mk.inj heq
  obtain ⟨⟨p, hjudging⟩, hcond⟩ := whileLoop_inv (fun a => ∃ p, Judging s p a)
    (fun a a' ⟨p, hp⟩ hgo hpass =>
      ⟨p + 1, hp.step rtTickGet fuel hn ((hp.goesOn_iff charSigned hn).1 hgo) hpass⟩)
    ha ⟨0, judging_start hq hs⟩
  have hend : ¬ a.i.toNat < s.cboxOnlineNum := fun hi =>
    Bool.eq_false_iff.1 hcond ((hjudging.goesOn_iff charSigned hn).2 hi)
  have hidx := hjudging.index
  have hle := hjudging.index_le
  have hcount := List.length_filter_le CboxState.stays ((cboxes s).take p)
  rw [List.length_take, length_cboxes] at hcount
  have hp : s.cboxOnlineNum ≤ p := by omega
  have htake : (cboxes s).take p = cboxes s :=
    List.take_of_length_le (by rw [length_cboxes]; exact hp)
  have hdrop : (cboxes s).drop p = [] := List.drop_eq_nil_of_le (by rw [length_cboxes]; exact hp)
  have honline := hjudging.online
  rw [htake, hdrop, List.append_nil] at honline
  have hlen := congrArg List.length honline
  rw [length_cboxes] at hlen
  rw [htake, ← hlen] at hidx
  refine ⟨honline, ?_, hjudging.queuesPacked, hjudging.savedPacked⟩
  rw [hjudging.judged, htake, show p - s.cboxOnlineNum =
    s.cboxOnlineNum - a.aboxInfo.cboxOnlineNum by omega]

end

/-! ## Registries that can be reached -/

/-- What happens: one of the events of the radio thread and the others, or a call of
    `assessCboxState` between two passes over the Cboxes. -/
inductive RadioEvent
  | event (e : Event)
  | assessCboxState (charSigned : Bool) (rtTickGet : ℕ → BitVec 32)

def Subg.radioStep (fuel : ℕ) (r : Subg) : RadioEvent → Option Subg
  | .event e => r.step fuel e
  | .assessCboxState charSigned rtTickGet =>
    if r.poll.isSome then none
    else (Radio.assessCboxState charSigned rtTickGet fuel r.aboxInfo).map fun (s, _) =>
      { r with aboxInfo := s }

/-- The event `e` leads from `r` to `r'`. -/
def Subg.RadioStep (r : Subg) (e : RadioEvent) (r' : Subg) : Prop :=
  ∃ fuel, r.radioStep fuel e = some r'

/-! ### Saved records over the events -/

theorem received_sameSaved (s : AboxInformation) (p : Poll) (a : Answer) :
    SameSaved s (received s p a) := by
  obtain heq | ⟨ids, heq⟩ := received_cases s p a
  · rw [heq]
    exact SameSaved.refl s
  · rw [heq]
    exact sameSaved_modifyCbox s _ fun _ => rfl

theorem pollFrom_savedPacked {r : Subg} (i : ℕ) (h : SavedPacked r.aboxInfo) :
    SavedPacked (r.pollFrom i).aboxInfo := by
  unfold Subg.pollFrom
  split_ifs with hi
  · have hpoll := getPoolDate_sameSaved r.aboxInfo i
    have hnext := (sameCboxes_nextPackNum (getPoolDate r.aboxInfo i).2.2 i).saved
    have hrestored := (processExistingData_savedPacked (List.replicate buffLen 0)
      (show i < (nextPackNum (getPoolDate r.aboxInfo i).2.2 i).cboxOnlineNum by
        rw [hnext.online, hpoll.online]; exact hi) (hnext.savedPacked (hpoll.savedPacked h))).1
    exact (sameCboxes_txResultData _ i).saved.savedPacked hrestored
  · exact h

theorem rxData_savedPacked {s : AboxInformation} (p : Poll) (a : Answer) (h : SavedPacked s) :
    SavedPacked (rxData s p a).1 := by
  by_cases hmiss : a.Missing
  · have hfail := (sameCboxes_txResultFail s p.cboxIndex).saved.savedPacked h
    rw [rxData_of_missing s p hmiss]
    simp only [unanswered]
    split_ifs
    · have htick := (sameCboxes_setErrTick _ p.cboxIndex .rtError a.tick).saved.savedPacked hfail
      exact (requeueSend_sameSaved _ _ _ _).savedPacked (saveCboxRecv_savedPacked _ _ _ htick).1
    · exact (sameCboxes_txResultData _ _).saved.savedPacked hfail
  · obtain ⟨cboxRecv, n, heq, -⟩ := rxData_of_answer s p hmiss
    have hreceived := (received_sameSaved s p a).savedPacked h
    rw [heq]
    simp only [answered]
    split_ifs
    · exact (sameCboxes_setErrTick _ _ _ _).saved.savedPacked hreceived
    · exact (sameCboxes_advance _ _).saved.savedPacked hreceived

theorem answer_savedPacked {r : Subg} (p : Poll) (a : Answer) (h : SavedPacked r.aboxInfo) :
    SavedPacked (r.answer p a).aboxInfo :=
  answer_keeps (rxData_savedPacked p a h) fun h => pollFrom_savedPacked _ h

theorem cleanFrom_savedPacked {fuel : ℕ} {s s' : AboxInformation} {i : ℕ} {k : Option ℕ}
    (h : cleanFrom fuel s i = some (s', k)) (hs : SavedPacked s) : SavedPacked s' := by
  obtain ⟨-, -, t, ht, rfl⟩ | ⟨-, -, rfl⟩ := cleanFrom_cases h
  · exact packed_wipe (f := saved) rfl (removeCbox_savedPacked ht hs).1
  · exact Packed.nil _

theorem event_savedPacked {r r' : Subg} {e : Event} (h : r.Step e r')
    (hs : SavedPacked r.aboxInfo) : SavedPacked r'.aboxInfo := by
  cases h.effect with
  | recvServerData recv =>
    rcases recvServerData_cases r.aboxInfo recv with ⟨heq, -⟩ | ⟨-, heq, -⟩ |
      ⟨-, i, s', heq, -, -, -, hput⟩
    · show SavedPacked (recvServerData r.aboxInfo recv).2
      rw [heq]
      exact hs
    · show SavedPacked (recvServerData r.aboxInfo recv).2
      rw [heq]
      exact hs
    · show SavedPacked (recvServerData r.aboxInfo recv).2
      rw [heq]
      exact hput.same.savedPacked hs
  | traverseCbox => exact pollFrom_savedPacked 0 hs
  | rxData a hpoll => exact answer_savedPacked _ a hs
  | recvTestPack2 cmd p_dev_id =>
    show SavedPacked (recvTestPack2 r.aboxInfo cmd p_dev_id).2
    unfold recvTestPack2
    split_ifs
    · exact (addCbox_savedPacked p_dev_id hs).1
    · exact hs
  | removeCbox i _ ht => exact (removeCbox_savedPacked ht hs).1
  | cleanCbox ht => exact cleanFrom_savedPacked ht hs
  | cleanNext _ ht => exact cleanFrom_savedPacked ht hs

/-! ### The number online over the events -/

theorem removeCbox_online_le {fuel : ℕ} {s t : AboxInformation} {i : ℕ}
    (h : removeCbox fuel s i = some t) : t.cboxOnlineNum ≤ s.cboxOnlineNum := by
  by_cases hi : i < s.cboxOnlineNum
  · rw [(modIds_removeCbox hi h).1]
    exact Nat.sub_le ..
  · obtain rfl := removeCbox_of_offline hi h
    exact le_rfl

theorem cleanFrom_online_le {fuel : ℕ} {s s' : AboxInformation} {i : ℕ} {k : Option ℕ}
    (h : cleanFrom fuel s i = some (s', k)) : s'.cboxOnlineNum ≤ s.cboxOnlineNum := by
  obtain ⟨-, -, t, ht, rfl⟩ | ⟨-, -, rfl⟩ := cleanFrom_cases h
  · show t.cboxOnlineNum ≤ s.cboxOnlineNum
    exact removeCbox_online_le ht
  · exact Nat.zero_le _

theorem event_online {r r' : Subg} {e : Event} (h : r.Step e r')
    (hn : r.aboxInfo.cboxOnlineNum ≤ cboxMaxNum) : r'.aboxInfo.cboxOnlineNum ≤ cboxMaxNum := by
  cases h.effect with
  | recvServerData recv => exact (sameDevids_recvServerData _ _).online.trans_le hn
  | traverseCbox => exact (sameDevids_pollFrom r 0).online.trans_le hn
  | @rxData p a hpoll =>
    rw [(sameDevids_answer r p a).online, received_online]
    exact hn
  | recvTestPack2 cmd p_dev_id =>
    show (recvTestPack2 r.aboxInfo cmd p_dev_id).2.cboxOnlineNum ≤ cboxMaxNum
    unfold recvTestPack2
    split_ifs with hguard
    · rcases addCbox_cases r.aboxInfo p_dev_id with heq | ⟨hadd, -⟩
      · rw [heq]
        exact hn
      · rw [hadd]
        exact hguard.2
    · exact hn
  | removeCbox i _ ht => exact (removeCbox_online_le ht).trans hn
  | cleanCbox ht => exact (cleanFrom_online_le ht).trans hn
  | cleanNext _ ht => exact (cleanFrom_online_le ht).trans hn

/-! ### Runs -/

/-- The records of the online Cboxes are apart, and there are at most `CBOX_MAX_NUM`. -/
structure Sound (r : Subg) : Prop where
  queues : QueuesPacked r.aboxInfo ∧ SendsNext r
  saved : SavedPacked r.aboxInfo
  online : r.aboxInfo.cboxOnlineNum ≤ cboxMaxNum

theorem Sound.init : Sound Subg.init :=
  ⟨⟨queuesPacked_init, nofun⟩, Packed.nil _, Nat.zero_le _⟩

/-- What a step does: an event happens, or the Cboxes are assessed. -/
theorem Subg.RadioStep.cases {r r' : Subg} {e : RadioEvent} (h : r.RadioStep e r') :
    (∃ e', e = .event e' ∧ r.Step e' r') ∨
    ∃ charSigned rtTickGet fuel t judged, e = .assessCboxState charSigned rtTickGet ∧
      r.poll = none ∧ assessCboxState charSigned rtTickGet fuel r.aboxInfo = some (t, judged) ∧
      r' = { r with aboxInfo := t } := by
  obtain ⟨fuel, h⟩ := h
  cases e with
  | event e => exact Or.inl ⟨e, rfl, fuel, h⟩
  | assessCboxState charSigned rtTickGet =>
    simp only [Subg.radioStep, Option.ite_none_left_eq_some] at h
    obtain ⟨hidle, h⟩ := h
    obtain ⟨⟨t, judged⟩, ht, rfl⟩ := Option.map_eq_some_iff.1 h
    exact Or.inr ⟨_, _, fuel, t, judged, rfl, by simpa using hidle, ht, rfl⟩

theorem Sound.step {r r' : Subg} {e : RadioEvent} (hr : Sound r) (h : r.RadioStep e r') :
    Sound r' := by
  rcases h.cases with ⟨e', -, hstep⟩ | ⟨_, _, fuel, t, judged, -, hidle, ht, rfl⟩
  · exact ⟨step_queuesPacked hstep hr.queues, event_savedPacked hstep hr.saved,
      event_online hstep hr.online⟩
  · have hdone := assessed_of_eq _ _ hr.queues.1 hr.saved hr.online ht
    have hle := List.length_filter_le CboxState.stays (cboxes r.aboxInfo)
    rw [← hdone.survivors, length_cboxes, length_cboxes] at hle
    exact ⟨⟨hdone.queuesPacked, hr.queues.2⟩, hdone.savedPacked, hle.trans hr.online⟩

/-- In every registry that can be reached, and whether `char` is signed or not:
    `assessCboxState` ends, with all copies inside, and has done what it should, exactly
    if the records of the Cboxes that meet a criterion fit. -/
theorem assessCboxState_iff {tr : List (RadioEvent × Subg)}
    (h : Path Subg.RadioStep Subg.init tr) (charSigned : Bool) (rtTickGet : ℕ → BitVec 32) :
    (∃ t judged fuel, assessCboxState charSigned rtTickGet fuel (last Subg.init tr).aboxInfo =
        some (t, judged) ∧ Assessed (last Subg.init tr).aboxInfo t judged) ↔
      ∀ c ∈ cboxes (last Subg.init tr).aboxInfo, Removable c.cboxAssessReport → c.Fits := by
  have hsound := (h.always Sound (fun hr hs => hr.step hs) Sound.init).last
  rw [← assess_ends_iff charSigned rtTickGet hsound.queues.1 hsound.saved hsound.online]
  constructor
  · rintro ⟨t, judged, fuel, ht, -⟩
    exact ⟨t, judged, fuel, ht⟩
  · rintro ⟨t, judged, fuel, ht⟩
    exact ⟨t, judged, fuel, ht, assessed_of_eq charSigned rtTickGet hsound.queues.1 hsound.saved
      hsound.online ht⟩

/-- A Cbox registers and is polled; while the poll waits, `recv` arrives, if any; it
    never answers. -/
def silentEvents (recv : Option (List Byte)) : List RadioEvent :=
  ([Event.recvTestPack2 testCmd2 fun _ => 1, Event.traverseCbox] ++
    (recv.map Event.recvServerData).toList ++
    List.replicate 11 (Event.rxData ⟨none, 0, true⟩)).map RadioEvent.event

/-- Then it has been sent eleven packages and has lost all of them. -/
theorem silent_run (recv : Option (List Byte)) {l : List DataInfo}
    (h : (exec (Subg.radioStep 0) Subg.init (silentEvents recv)).map (fun tr =>
        ((last Subg.init tr).aboxInfo.cboxOnlineNum,
          queue ((last Subg.init tr).aboxInfo.cboxInfo 0),
          saved ((last Subg.init tr).aboxInfo.cboxInfo 0),
          decide (Removable ((last Subg.init tr).aboxInfo.cboxInfo 0).cboxAssessReport))) =
      some (1, l, [], true)) :
    ∃ tr, exec (Subg.radioStep 0) Subg.init (silentEvents recv) = some tr ∧
      Path Subg.RadioStep Subg.init tr ∧
      cboxes (last Subg.init tr).aboxInfo = [cboxState (last Subg.init tr).aboxInfo 0] ∧
      queue ((last Subg.init tr).aboxInfo.cboxInfo 0) = l ∧
      kept (last Subg.init tr).aboxInfo 0 = [] ∧
      Removable (cboxState (last Subg.init tr).aboxInfo 0).cboxAssessReport := by
  obtain ⟨tr, htr, heq⟩ := Option.map_eq_some_iff.1 h
  simp only [Prod.mk.injEq, decide_eq_true_eq] at heq
  obtain ⟨hn, hqueue, hsaved, hrem⟩ := heq
  refine ⟨tr, htr, exec_path (fun h => ⟨0, h⟩) htr, ?_, hqueue, ?_, hrem⟩
  · unfold cboxes
    rw [hn]
    rfl
  · unfold kept
    rw [hsaved]
    rfl

/-- The Cbox is removed. -/
theorem assess_silent : ∃ tr t judged fuel, Path Subg.RadioStep Subg.init tr ∧
    assessCboxState true (fun _ => 0) fuel (last Subg.init tr).aboxInfo = some (t, judged) ∧
    Assessed (last Subg.init tr).aboxInfo t judged ∧ cboxes t = [] := by
  obtain ⟨tr, -, hpath, hone, hqueue, hkept, hrem⟩ := silent_run none (l := []) (by decide +kernel)
  have hfits : (cboxState (last Subg.init tr).aboxInfo 0).Fits := by
    have hwaiting : waiting (last Subg.init tr).aboxInfo 0 = [] := by
      unfold waiting
      rw [hqueue]
      rfl
    constructor
    · show ∀ n ∈ (kept (last Subg.init tr).aboxInfo 0).map List.length, _
      rw [hkept]
      exact fun n hn => absurd hn List.not_mem_nil
    · show ∀ n ∈ (waiting (last Subg.init tr).aboxInfo 0).map List.length, _
      rw [hwaiting]
      exact fun n hn => absurd hn List.not_mem_nil
  obtain ⟨t, judged, fuel, ht, hdone⟩ := (assessCboxState_iff hpath true fun _ => 0).2 (by
    rw [hone]
    exact List.forall_mem_singleton.2 fun _ => hfits)
  refine ⟨tr, t, judged, fuel, hpath, ht, hdone, ?_⟩
  rw [hdone.survivors, hone, List.filter_singleton]
  unfold CboxState.stays
  rw [decide_eq_false (fun hnot => hnot hrem)]
  rfl

/-- A frame of 1025 bytes arrives for it while it is polled: `assessCboxState` removes the
    Cbox, and the copy of the frame does not stay inside `tempBuff`. -/
theorem assess_silent_long : ∃ tr, Path Subg.RadioStep Subg.init tr ∧
    ∀ charSigned rtTickGet fuel,
      assessCboxState charSigned rtTickGet fuel (last Subg.init tr).aboxInfo = none := by
  obtain ⟨tr, -, hpath, hone, hqueue, -, hrem⟩ :=
    silent_run (some longFrameTo1) (l := [⟨0, 1025⟩]) (by decide +kernel)
  refine ⟨tr, hpath, fun charSigned rtTickGet fuel => ?_⟩
  have hsound := (hpath.always Sound (fun hr hs => hr.step hs) Sound.init).last
  rw [Option.eq_none_iff_forall_ne_some]
  rintro ⟨t, judged⟩ ht
  have hfits := (assess_ends_iff charSigned rtTickGet hsound.queues.1 hsound.saved
    hsound.online).1 ⟨t, judged, fuel, ht⟩ _ (by rw [hone]; exact List.mem_singleton_self _) hrem
  have honline : 0 < (last Subg.init tr).aboxInfo.cboxOnlineNum := by
    rw [← length_cboxes, hone]
    exact Nat.one_pos
  have hlen : (waiting (last Subg.init tr).aboxInfo 0).map List.length = [1025] := by
    unfold waiting
    rw [readEach_lengths fun d hd => by
      rw [length_used]; exact packed_inside hsound.queues.1 honline hd, hqueue]
    rfl
  have hshort := hfits.2 1025 (by
    show 1025 ∈ (waiting (last Subg.init tr).aboxInfo 0).map List.length
    rw [hlen]
    exact List.mem_singleton_self _)
  exact absurd hshort (by decide)

end Abox.Radio
