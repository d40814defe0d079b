import Abox.Radio.Queues

/-!
# Removing Cboxes

`removeCbox` empties the records of a Cbox by reading them, one after the other,
into a `tempBuff` of `BUFF_LEN` bytes; a record that is longer is copied over the
end of it. `removeCboxIn` and `cleanCboxIn` are `removeCbox` and `cleanCbox` as far
as all copies stay inside.

* `Drains`: what emptying the records of one Cbox leaves unchanged.
* `removeCboxIn_iff`: the copies stay inside exactly if the records are short.
* `removal_iff`: then the Cbox is removed with its bytes, and nothing else is; and
  `cleanCbox`, which reads the records of every other Cbox, leaves none behind.
-/

namespace Abox.Radio

open Segments Loops

/-! ## Contents -/

/-- The bytes of the records `l`, one list for each. -/
def readEach (data : List Byte) (l : List DataInfo) : List (List Byte) :=
  l.map fun d => d.seg.read data

/-- The server frames waiting for the Cbox in slot `k`. -/
def waiting (s : AboxInformation) (k : ℕ) : List (List Byte) :=
  readEach s.cboxDataPool.used (queue (s.cboxInfo k))

/-- The radio data saved for the Cbox in slot `k`. -/
def kept (s : AboxInformation) (k : ℕ) : List (List Byte) :=
  readEach s.subgDataPool.used (saved (s.cboxInfo k))

/-- All of a Cbox but its records. -/
def identity (c : CboxInformation) :
    (Fin devidTypeNum → BitVec 32) × CboxPackageSendInfor × CboxAssessmentReport :=
  (c.devidCollection, c.packSendInfo, c.cboxAssessReport)

theorem ListsChanged.identity {s s' : AboxInformation} {i : ℕ} (h : ListsChanged s s' i) (j : ℕ) :
    identity (s'.cboxInfo j) = Radio.identity (s.cboxInfo j) := by
  obtain ⟨l, hl⟩ := h.info j
  rw [hl]
  rfl

theorem SavedChanged.identity {s s' : AboxInformation} {i : ℕ} (h : SavedChanged s s' i) (j : ℕ) :
    identity (s'.cboxInfo j) = Radio.identity (s.cboxInfo j) := by
  obtain ⟨d, hd⟩ := h.info j
  rw [hd]
  rfl

/-- The number of bytes in the records `l`. -/
def total (l : List DataInfo) : ℕ := (l.map DataInfo.dataLength).sum

/-- The slot has no records. -/
def NoRecords (c : CboxInformation) : Prop := queue c = [] ∧ saved c = []

/-- The saved records of the online Cboxes tile the pool of radio data. -/
def SavedLedger (s : AboxInformation) : Prop :=
  Tiles s.subgDataPool.entrySize ((records saved s).map DataInfo.seg)

/-- Cutting out a record leaves the contents of the others. -/
theorem readEach_remove {data : List Byte} {d : DataInfo} {l : List DataInfo}
    (hd : d.seg.Inside data.length)
    (hl : ∀ e ∈ l, e.seg.Inside data.length ∧ d.seg.Apart e.seg) :
    readEach (d.seg.remove data) (l.map (shiftDataAddr d)) = readEach data l := by
  unfold readEach
  rw [List.map_map]
  refine List.map_congr_left fun e he => ?_
  show (shiftDataAddr d e).seg.read (d.seg.remove data) = _
  rw [seg_shiftDataAddr]
  exact Seg.read_remove hd (hl e he).1 (hl e he).2

theorem readEach_lengths {data : List Byte} {l : List DataInfo}
    (hl : ∀ e ∈ l, e.seg.Inside data.length) :
    (readEach data l).map List.length = l.map DataInfo.dataLength := by
  unfold readEach
  rw [List.map_map]
  exact List.map_congr_left fun e he => Seg.length_read (hl e he)

theorem total_shift (d : DataInfo) (l : List DataInfo) :
    total (l.map (shiftDataAddr d)) = total l := by
  unfold total
  rw [List.map_map]
  congr 1
  exact List.map_congr_left fun e _ => shiftDataAddr_dataLength d e

/-! ## One record less -/

/-- What has happened to `s` when some records of slot `i` have been read out. -/
structure Drains (s t : AboxInformation) (i : ℕ) : Prop where
  online : t.cboxOnlineNum = s.cboxOnlineNum
  identity : ∀ j, identity (t.cboxInfo j) = identity (s.cboxInfo j)
  waiting : ∀ j < s.cboxOnlineNum, j ≠ i → waiting t j = waiting s j
  kept : ∀ j < s.cboxOnlineNum, j ≠ i → kept t j = kept s j
  offline : ∀ j, s.cboxOnlineNum ≤ j → t.cboxInfo j = s.cboxInfo j
  queuesPacked : QueuesPacked t
  savedPacked : SavedPacked t
  ledger : Ledger s → Ledger t
  savedLedger : SavedLedger s → SavedLedger t
  queueBytes : t.cboxDataPool.entrySize + total (queue (s.cboxInfo i)) =
    s.cboxDataPool.entrySize + total (queue (t.cboxInfo i))
  savedBytes : t.subgDataPool.entrySize + total (saved (s.cboxInfo i)) =
    s.subgDataPool.entrySize + total (saved (t.cboxInfo i))

theorem Drains.refl {s : AboxInformation} (hq : QueuesPacked s) (hs : SavedPacked s) (i : ℕ) :
    Drains s s i where
  online := rfl
  identity _ := rfl
  waiting _ _ _ := rfl
  kept _ _ _ := rfl
  offline _ _ := rfl
  queuesPacked := hq
  savedPacked := hs
  ledger h := h
  savedLedger h := h
  queueBytes := rfl
  savedBytes := rfl

theorem Drains.trans {s t u : AboxInformation} {i : ℕ} (h : Drains s t i) (h' : Drains t u i) :
    Drains s u i where
  online := h'.online.trans h.online
  identity j := (h'.identity j).trans (h.identity j)
  waiting j hj hji :=
    (h'.waiting j (by rw [h.online]; exact hj) hji).trans (h.waiting j hj hji)
  kept j hj hji := (h'.kept j (by rw [h.online]; exact hj) hji).trans (h.kept j hj hji)
  offline j hj := (h'.offline j (by rw [h.online]; exact hj)).trans (h.offline j hj)
  queuesPacked := h'.queuesPacked
  savedPacked := h'.savedPacked
  ledger hl := h'.ledger (h.ledger hl)
  savedLedger hl := h'.savedLedger (h.savedLedger hl)
  queueBytes := by
    have h1 := h.queueBytes
    have h2 := h'.queueBytes
    omega
  savedBytes := by
    have h1 := h.savedBytes
    have h2 := h'.savedBytes
    omega

/-! ### Saved radio data -/

theorem processExistingData_identity (s : AboxInformation) (i : ℕ) (saveBuff : List Byte) (j : ℕ) :
    identity ((processExistingData s i saveBuff).2.2.cboxInfo j) = identity (s.cboxInfo j) :=
  (processExistingData_savedChanged s i saveBuff).identity j

theorem processExistingData_offline (s : AboxInformation) {i : ℕ} (saveBuff : List Byte)
    (hi : i < s.cboxOnlineNum) {j : ℕ} (hj : s.cboxOnlineNum ≤ j) :
    (processExistingData s i saveBuff).2.2.cboxInfo j = s.cboxInfo j := by
  have hji : j ≠ i := by omega
  simp only [processExistingData]
  split_ifs
  · rfl
  · rw [AboxInformation.modifyCbox_cboxInfo, if_neg hji]
  · split
    · rw [AboxInformation.modifyCbox_cboxInfo, AboxInformation.mapOnline_cboxInfo, if_neg hji,
        if_neg (Nat.not_lt.2 hj)]
    · rfl

theorem Restored.savedLedger {s s' : AboxInformation} {i : ℕ} {r : DataInfo}
    (h : Restored s s' i r) (hi : i < s.cboxOnlineNum) (hr : saved (s.cboxInfo i) = [r])
    (hl : SavedLedger s) : SavedLedger s' := by
  have hsplit := hl.perm ((records_perm (f := saved) hi).map DataInfo.seg)
  rw [hr, List.singleton_append, List.map_cons] at hsplit
  unfold SavedLedger
  rw [h.entrySize]
  exact hsplit.closeUp.perm (h.segs_perm hi).symm

theorem Restored.kept {s s' : AboxInformation} {i : ℕ} {r : DataInfo} (h : Restored s s' i r)
    (hi : i < s.cboxOnlineNum) (hr : r ∈ saved (s.cboxInfo i)) (hp : SavedPacked s) {j : ℕ}
    (hj : j < s.cboxOnlineNum) (hji : j ≠ i) : kept s' j = kept s j := by
  unfold Radio.kept
  rw [h.list j hj hji, h.used]
  refine readEach_remove (by rw [length_used]; exact hp.inside hi hr) fun e he => ?_
  rw [length_used]
  exact ⟨hp.inside hj he, hp.apart hi hj hji hr he⟩

theorem SameQueues.waiting {s s' : AboxInformation} (h : SameQueues s s') (j : ℕ) :
    waiting s' j = waiting s j := by
  unfold Radio.waiting
  rw [h.list, h.pool]

theorem SameSaved.kept {s s' : AboxInformation} (h : SameSaved s s') (j : ℕ) :
    kept s' j = kept s j := by
  unfold Radio.kept saved
  rw [h.info, h.pool]

/-- A restore takes the saved record out, and says whether the copy fits. -/
theorem processExistingData_drains {s : AboxInformation} {i : ℕ} (hi : i < s.cboxOnlineNum)
    (hq : QueuesPacked s) (hs : SavedPacked s) (saveBuff : List Byte) :
    Drains s (processExistingData s i saveBuff).2.2 i := by
  have hsame := processExistingData_sameQueues s i saveBuff
  obtain ⟨hpacked, hnone, -⟩ := processExistingData_savedPacked saveBuff hi hs
  have hrest : (∀ j < s.cboxOnlineNum, j ≠ i →
      kept (processExistingData s i saveBuff).2.2 j = kept s j) ∧
      (SavedLedger s → SavedLedger (processExistingData s i saveBuff).2.2) ∧
      (processExistingData s i saveBuff).2.2.subgDataPool.entrySize +
        total (saved (s.cboxInfo i)) = s.subgDataPool.entrySize := by
    by_cases h0 : (s.cboxInfo i).subgDataInfo.dataLength = 0
    · have heq : processExistingData s i saveBuff = (saveBuff, 0, s) := by
        simp only [processExistingData, if_pos h0]
      rw [heq, saved_of_eq h0]
      exact ⟨fun _ _ _ => rfl, id, rfl⟩
    · have hr := saved_of_ne h0
      have hmem : (s.cboxInfo i).subgDataInfo ∈ saved (s.cboxInfo i) := by simp [hr]
      have hin := hs.inside hi hmem
      have htotal : total (saved (s.cboxInfo i)) = (s.cboxInfo i).subgDataInfo.dataLength := by
        rw [hr]
        rfl
      have hle : (s.cboxInfo i).subgDataInfo.dataLength ≤ s.subgDataPool.entrySize := by
        obtain ⟨-, h1, h2⟩ := hin
        simp only [DataInfo.seg] at h1 h2
        omega
      rw [htotal]
      by_cases hlt : (s.cboxInfo i).subgDataInfo.dataLength < subgDataPoolSize
      · obtain ⟨s', heq, hres⟩ := processExistingData_eq saveBuff rfl hin hlt
        rw [heq]
        refine ⟨fun j hj hji => hres.kept hi hmem hs hj hji, hres.savedLedger hi hr, ?_⟩
        show s'.subgDataPool.entrySize + _ = _
        rw [hres.entrySize]
        omega
      · have hfull := Nat.le_of_not_lt hlt
        have hentry := s.subgDataPool.entry_le
        rw [processExistingData_full saveBuff hfull]
        refine ⟨fun j hj hji => ?_, fun _ => ?_, ?_⟩
        · have hnil := hs.alone hi hfull j hj hji
          unfold kept
          rw [AboxInformation.modifyCbox_cboxInfo, if_neg hji]
          show readEach _ (saved (s.cboxInfo j)) = _
          rw [hnil]
          rfl
        · unfold SavedLedger
          rw [hs.records_full hi hfull]
          exact Tiles.nil
        · show 0 + _ = _
          omega
  have hown : queue ((processExistingData s i saveBuff).2.2.cboxInfo i) = queue (s.cboxInfo i) :=
    hsame.list i
  refine ⟨hsame.online, processExistingData_identity s i saveBuff, fun j _ _ => hsame.waiting j,
    hrest.1, fun j hj => processExistingData_offline s saveBuff hi hj, hsame.queuesPacked hq,
    hpacked, hsame.ledger_congr.2, hrest.2.1, ?_, ?_⟩
  · rw [hown, hsame.pool]
  · rw [saved_of_eq hnone, hrest.2.2]
    rfl

/-! ### Server frames -/

theorem getPoolDate_identity (s : AboxInformation) (i j : ℕ) :
    identity ((getPoolDate s i).2.2.cboxInfo j) = identity (s.cboxInfo j) :=
  (getPoolDate_listsChanged s i).identity j

theorem getPoolDate_offline (s : AboxInformation) {i : ℕ} (hi : i < s.cboxOnlineNum) {j : ℕ}
    (hj : s.cboxOnlineNum ≤ j) : (getPoolDate s i).2.2.cboxInfo j = s.cboxInfo j :=
  (getPoolDate_listsChanged s i).offline j hj (by omega)

/-- A poll takes the first record out. -/
theorem getPoolDate_drains {s : AboxInformation} {i : ℕ} (hi : i < s.cboxOnlineNum)
    (hq : QueuesPacked s) (hs : SavedPacked s) : Drains s (getPoolDate s i).2.2 i := by
  rcases hlist : queue (s.cboxInfo i) with - | ⟨d, l⟩
  · rw [getPoolDate_of_nil hlist]
    exact .refl hq hs i
  · have hmem : d ∈ queue (s.cboxInfo i) := by simp [hlist]
    have hin := packed_inside hq hi hmem
    obtain ⟨t, heq, htaken⟩ := getPoolDate_eq hi hlist hin
    have ht : (getPoolDate s i).2.2 = t := by rw [heq]
    have hid := getPoolDate_identity s i
    have hoff := fun j hj => getPoolDate_offline s hi (j := j) hj
    rw [ht] at hid hoff ⊢
    refine ⟨htaken.same.online, hid, fun j hj hji => ?_, fun j _ _ => htaken.same.kept j, hoff,
      htaken.queuesPacked hi hlist hq, htaken.same.savedPacked hs, htaken.ledger hi hlist,
      ?_, ?_, ?_⟩
    · unfold waiting
      rw [htaken.list j hj, if_neg hji, htaken.used]
      refine readEach_remove (by rw [length_used]; exact hin) fun e he => ?_
      rw [length_used]
      exact hq.apart hi hlist hj e (by rw [if_neg hji]; exact he)
    · intro hl
      unfold SavedLedger
      rw [htaken.same.records, htaken.same.pool]
      exact hl
    · rw [htaken.list i hi, if_pos rfl, total_shift, htaken.entrySize, hlist]
      have hle : d.dataLength ≤ s.cboxDataPool.entrySize := by
        obtain ⟨-, h1, h2⟩ := hin
        simp only [DataInfo.seg] at h1 h2
        omega
      show _ + (d.dataLength + total l) = _
      omega
    · rw [htaken.same.pool]
      unfold saved
      rw [htaken.same.info]

/-! ## The whole removal -/

/-- The records of a slot have been read out by the two loops of `removeCbox`. -/
theorem dropSaved_drains {fuel : ℕ} {s t : AboxInformation} {i : ℕ} (hi : i < s.cboxOnlineNum)
    (hq : QueuesPacked s) (hs : SavedPacked s) (h : dropSaved fuel s i = some t) :
    Drains s t i ∧ saved (t.cboxInfo i) = [] := by
  have hinv := whileLoop_inv (fun t => Drains s t i) ?_ h (.refl hq hs i)
  · exact ⟨hinv.1, saved_of_eq (by simpa using hinv.2)⟩
  · intro u v hu _ hv
    obtain rfl := Option.some.inj hv
    exact hu.trans (processExistingData_drains (by rw [hu.online]; exact hi) hu.queuesPacked
      hu.savedPacked _)

theorem dropQueue_drains {fuel : ℕ} {s t : AboxInformation} {i : ℕ} (hi : i < s.cboxOnlineNum)
    (hq : QueuesPacked s) (hs : SavedPacked s) (h : dropQueue fuel s i = some t) :
    Drains s t i := by
  refine (whileLoop_inv (fun t => Drains s t i) ?_ h (.refl hq hs i)).1
  intro u v hu _ hv
  obtain rfl := Option.some.inj hv
  exact hu.trans (getPoolDate_drains (by rw [hu.online]; exact hi) hu.queuesPacked hu.savedPacked)

/-- The Cbox in slot `i` is removed: the others keep their order, identity and bytes,
    and its bytes have been taken out of both pools. -/
structure Removed (s t : AboxInformation) (i : ℕ) : Prop where
  online : t.cboxOnlineNum = s.cboxOnlineNum - 1
  identity : ∀ j < t.cboxOnlineNum, identity (t.cboxInfo j) = identity (s.cboxInfo (skip i j))
  waiting : ∀ j < t.cboxOnlineNum, waiting t j = waiting s (skip i j)
  kept : ∀ j < t.cboxOnlineNum, kept t j = kept s (skip i j)
  queueBytes : t.cboxDataPool.entrySize + total (queue (s.cboxInfo i)) = s.cboxDataPool.entrySize
  savedBytes : t.subgDataPool.entrySize + total (saved (s.cboxInfo i)) = s.subgDataPool.entrySize
  ledger : Ledger s → Ledger t
  savedLedger : SavedLedger s → SavedLedger t
  queuesPacked : QueuesPacked t
  savedPacked : SavedPacked t
  closed : NoRecords (t.cboxInfo t.cboxOnlineNum) ∧
    (t.cboxInfo t.cboxOnlineNum).cboxAssessReport = ⟨0, 0, 0, 0, 0, 0⟩
  beyond : ∀ j, s.cboxOnlineNum ≤ j → t.cboxInfo j = s.cboxInfo j

/-- The slots that are not online still have no records. -/
theorem Removed.offline {s t : AboxInformation} {i : ℕ} (h : Removed s t i)
    (hs : ∀ j, s.cboxOnlineNum ≤ j → NoRecords (s.cboxInfo j)) {j : ℕ}
    (hj : t.cboxOnlineNum ≤ j) : NoRecords (t.cboxInfo j) := by
  by_cases hlast : j = t.cboxOnlineNum
  · rw [hlast]
    exact h.closed.1
  · have hn := h.online
    rw [h.beyond j (by omega)]
    exact hs j (by omega)

theorem removeCbox_removed {fuel : ℕ} {s t : AboxInformation} {i : ℕ} (hi : i < s.cboxOnlineNum)
    (hq : QueuesPacked s) (hs : SavedPacked s) (h : removeCbox fuel s i = some t) :
    Removed s t i := by
  have hledger := fun hl => removeCbox_ledger h hl
  have hpacked := (removeCbox_queued h hq).1
  have hspacked := (removeCbox_savedPacked h hs).1
  obtain ⟨u, v, hu, hv, rfl⟩ := removeCbox_eq hi h
  obtain ⟨hdu, hnil⟩ := dropSaved_drains hi hq hs hu
  have hdv := dropQueue_drains (by rw [hdu.online]; exact hi) hdu.queuesPacked hdu.savedPacked hv
  obtain ⟨hsame, hqnil⟩ := dropQueue_sameSaved hv
  have hsnil : saved (v.cboxInfo i) = [] := by
    unfold saved at hnil ⊢
    rw [hsame.info]
    exact hnil
  have hd := hdu.trans hdv
  have hvn := hd.online
  have hmove : ∀ j < s.cboxOnlineNum - 1,
      (moveCboxesDown v i).cboxInfo j = v.cboxInfo (skip i j) :=
    fun j hj => moveCboxesDown_cboxInfo (by rw [hvn]; exact hj)
  refine ⟨by rw [moveCboxesDown_cboxOnlineNum, hvn], fun j hj => ?_, fun j hj => ?_,
    fun j hj => ?_, ?_, ?_, hledger, fun hl => ?_, hpacked, hspacked, ?_, fun j hj => ?_⟩
  · rw [moveCboxesDown_cboxOnlineNum, hvn] at hj
    rw [hmove j hj]
    exact hd.identity _
  · rw [moveCboxesDown_cboxOnlineNum, hvn] at hj
    rw [← hd.waiting _ (skip_lt hi hj) (skip_ne i j)]
    unfold waiting
    rw [hmove j hj, moveCboxesDown_cboxDataPool]
  · rw [moveCboxesDown_cboxOnlineNum, hvn] at hj
    rw [← hd.kept _ (skip_lt hi hj) (skip_ne i j)]
    unfold kept
    rw [hmove j hj, moveCboxesDown_subgDataPool]
  · have hbytes := hd.queueBytes
    rw [hqnil] at hbytes
    exact hbytes
  · have hbytes := hd.savedBytes
    rw [hsnil] at hbytes
    exact hbytes
  · have hperm := (records_perm (f := saved) (s := v) (i := i) (by rw [hvn]; exact hi)).map
      DataInfo.seg
    rw [hsnil, List.nil_append] at hperm
    unfold SavedLedger
    rw [records_moveCboxesDown]
    exact (hd.savedLedger hl).perm hperm
  · -- the slot that was the last is reset
    have hslot : (moveCboxesDown v i).cboxInfo (moveCboxesDown v i).cboxOnlineNum =
        initCboxInfo (v.cboxInfo (v.cboxOnlineNum - 1)) := by
      simp only [moveCboxesDown]
      rw [if_neg (by omega), if_neg (lt_irrefl _), if_pos trivial]
    rw [hslot]
    exact ⟨⟨rfl, saved_of_eq rfl⟩, rfl⟩
  · simp only [moveCboxesDown]
    rw [hvn, if_neg (by omega), if_neg (by omega), if_neg (by omega)]
    exact hd.offline j hj

/-! ## Copies that stay inside -/

/-- The state after a read, `none` if it has copied more than `tempBuff` holds. -/
def inTempBuff (r : List Byte × ℕ × AboxInformation) : Option AboxInformation :=
  if r.1.length ≤ buffLen then some r.2.2 else none

/-- `dropSaved`, as far as all copies stay inside `tempBuff`. -/
def dropSavedIn (fuel : ℕ) (s : AboxInformation) (removeIndex : ℕ) : Option AboxInformation :=
  whileLoop (fun s => (s.cboxInfo removeIndex).subgDataInfo.dataLength != 0)
    (fun s => inTempBuff (processExistingData s removeIndex (List.replicate buffLen 0))) fuel s

/-- `dropQueue`, as far as all copies stay inside `tempBuff`. -/
def dropQueueIn (fuel : ℕ) (s : AboxInformation) (removeIndex : ℕ) : Option AboxInformation :=
  whileLoop (fun s => (s.cboxInfo removeIndex).cboxDataInfo.entryNum != 0)
    (fun s => inTempBuff (getPoolDate s removeIndex)) fuel s

/-- `removeCbox`, as far as all copies stay inside `tempBuff`. -/
def removeCboxIn (fuel : ℕ) (s : AboxInformation) (removeIndex : ℕ) : Option AboxInformation :=
  if s.cboxOnlineNum ≤ removeIndex then some s
  else do
    let s ← dropSavedIn fuel s removeIndex
    let s ← dropQueueIn fuel s removeIndex
    return moveCboxesDown s removeIndex

/-- One pass of the loop of `cleanCbox`. -/
def cleanOneIn (fuel : ℕ) (p : AboxInformation × ℕ) : Option (AboxInformation × ℕ) :=
  (removeCboxIn fuel p.1 p.2).map fun s =>
    (s.modifyCbox p.2 fun _ => CboxInformation.zero, p.2 + 1)

/-- The loop goes on. -/
def cleanGoesOn (p : AboxInformation × ℕ) : Bool := decide (p.2 < p.1.cboxOnlineNum)

/-- `cleanCbox`, as far as all copies stay inside the `tempBuff` of `removeCbox`. -/
def cleanCboxIn (fuel : ℕ) (s : AboxInformation) : Option AboxInformation :=
  (whileLoop cleanGoesOn (cleanOneIn fuel) fuel
    ({ s with packageSendNum := 0, packageWrongNum := 0 }, 0)).map fun p =>
      { p.1 with
        cboxOnlineNum := 0
        cboxDataPool := cleanPool p.1.cboxDataPool
        subgDataPool := cleanPool p.1.subgDataPool }

theorem inTempBuff_eq_some {r : List Byte × ℕ × AboxInformation} {t : AboxInformation} :
    inTempBuff r = some t ↔ r.1.length ≤ buffLen ∧ r.2.2 = t := by
  unfold inTempBuff
  rw [Option.ite_none_right_eq_some, Option.some.injEq]

/-- Copies that stay inside do what the model without the bound says. -/
theorem dropSaved_of_in {fuel : ℕ} {s t : AboxInformation} {i : ℕ}
    (h : dropSavedIn fuel s i = some t) : dropSaved fuel s i = some t :=
  whileLoop_mono (fun _ _ h => congrArg some (inTempBuff_eq_some.1 h).2) le_rfl h

theorem dropQueue_of_in {fuel : ℕ} {s t : AboxInformation} {i : ℕ}
    (h : dropQueueIn fuel s i = some t) : dropQueue fuel s i = some t :=
  whileLoop_mono (fun _ _ h => congrArg some (inTempBuff_eq_some.1 h).2) le_rfl h

theorem removeCbox_of_in {fuel : ℕ} {s t : AboxInformation} {i : ℕ}
    (h : removeCboxIn fuel s i = some t) : removeCbox fuel s i = some t := by
  unfold removeCboxIn at h
  unfold removeCbox
  split_ifs at h ⊢ with hi
  · exact h
  · obtain ⟨u, hu, h⟩ := Option.bind_eq_some_iff.1 h
    obtain ⟨v, hv, h⟩ := Option.bind_eq_some_iff.1 h
    show (dropSaved fuel s i).bind _ = some t
    rw [dropSaved_of_in hu]
    show (dropQueue fuel u i).bind _ = some t
    rw [dropQueue_of_in hv]
    exact h

theorem removeCboxIn_mono {fuel fuel' : ℕ} {s t : AboxInformation} {i : ℕ} (hf : fuel ≤ fuel')
    (h : removeCboxIn fuel s i = some t) : removeCboxIn fuel' s i = some t := by
  unfold removeCboxIn at h ⊢
  split_ifs at h ⊢ with hi
  · exact h
  · obtain ⟨u, hu, h⟩ := Option.bind_eq_some_iff.1 h
    obtain ⟨v, hv, h⟩ := Option.bind_eq_some_iff.1 h
    have hu' : dropSavedIn fuel' s i = some u := whileLoop_mono (fun _ _ h => h) hf hu
    have hv' : dropQueueIn fuel' u i = some v := whileLoop_mono (fun _ _ h => h) hf hv
    show (dropSavedIn fuel' s i).bind _ = some t
    rw [hu']
    show (dropQueueIn fuel' u i).bind _ = some t
    rw [hv']
    exact h

/-- The saved record of a Cbox is copied into `tempBuff`, unless it fills the pool. -/
def SavedFits (c : CboxInformation) : Prop :=
  c.subgDataInfo.dataLength ≤ buffLen ∨ subgDataPoolSize ≤ c.subgDataInfo.dataLength

/-- The records of a Cbox fit into `tempBuff`. -/
def FitsTempBuff (c : CboxInformation) : Prop :=
  SavedFits c ∧ ∀ d ∈ queue c, d.dataLength ≤ buffLen

/-- There is nothing to read out. -/
theorem dropSavedIn_of_eq {s : AboxInformation} {i : ℕ}
    (h : (s.cboxInfo i).subgDataInfo.dataLength = 0) : dropSavedIn 0 s i = some s := by
  have hcond : ((s.cboxInfo i).subgDataInfo.dataLength != 0) = false := by rw [h]; rfl
  unfold dropSavedIn
  rw [whileLoop_of_not]
  exact hcond

theorem dropQueueIn_of_nil {s : AboxInformation} {i : ℕ} (h : queue (s.cboxInfo i) = []) :
    dropQueueIn 0 s i = some s := by
  have hcond : ((queue (s.cboxInfo i)).length != 0) = false := by rw [h]; rfl
  unfold dropQueueIn
  rw [whileLoop_of_not]
  exact hcond

/-- The first loop ends, with all copies inside, exactly if the saved record fits. -/
theorem dropSavedIn_iff {s : AboxInformation} {i : ℕ} (hi : i < s.cboxOnlineNum)
    (hs : SavedPacked s) :
    (∃ fuel t, dropSavedIn fuel s i = some t) ↔ SavedFits (s.cboxInfo i) := by
  by_cases h0 : (s.cboxInfo i).subgDataInfo.dataLength = 0
  · refine iff_of_true ⟨0, s, dropSavedIn_of_eq h0⟩ (Or.inl ?_)
    rw [h0]
    exact Nat.zero_le _
  · have hcond : ((s.cboxInfo i).subgDataInfo.dataLength != 0) = true := by simpa using h0
    have hyields : ∀ t, (∃ fuel, dropSavedIn fuel s i = some t) ↔ ∃ s',
        inTempBuff (processExistingData s i (List.replicate buffLen 0)) = some s' ∧
          ∃ fuel, dropSavedIn fuel s' i = some t :=
      fun _ => whileLoop_pass_iff hcond
    have hone : (∃ fuel t, dropSavedIn fuel s i = some t) ↔
        (processExistingData s i (List.replicate buffLen 0)).1.length ≤ buffLen := by
      constructor
      · rintro ⟨fuel, t, h⟩
        obtain ⟨s', hs', -⟩ := (hyields t).1 ⟨fuel, h⟩
        exact (inTempBuff_eq_some.1 hs').1
      · intro hle
        have hend := (processExistingData_savedPacked (List.replicate buffLen 0) hi hs).2.1
        obtain ⟨fuel, h⟩ := (hyields _).2 ⟨_, inTempBuff_eq_some.2 ⟨hle, rfl⟩, 0,
          dropSavedIn_of_eq hend⟩
        exact ⟨fuel, _, h⟩
    rw [hone]
    by_cases hlt : (s.cboxInfo i).subgDataInfo.dataLength < subgDataPoolSize
    · have hin := hs.inside hi (d := (s.cboxInfo i).subgDataInfo) (by simp [saved_of_ne h0])
      obtain ⟨s', heq, -⟩ := processExistingData_eq (List.replicate buffLen 0) rfl hin hlt
      have hread : ((s.cboxInfo i).subgDataInfo.seg.read s.subgDataPool.used).length =
          (s.cboxInfo i).subgDataInfo.dataLength := Seg.length_read (by rw [length_used]; exact hin)
      rw [heq, List.length_append, hread, List.length_replicate]
      unfold SavedFits
      omega
    · have hfull := Nat.le_of_not_lt hlt
      rw [processExistingData_full _ hfull, List.length_replicate]
      exact iff_of_true le_rfl (Or.inr hfull)

/-- The second loop ends, with all copies inside, exactly if the frames fit. -/
theorem dropQueueIn_iff {s : AboxInformation} {i : ℕ} (hi : i < s.cboxOnlineNum)
    (hq : QueuesPacked s) : (∃ fuel t, dropQueueIn fuel s i = some t) ↔
      ∀ d ∈ queue (s.cboxInfo i), d.dataLength ≤ buffLen := by
  induction hn : (queue (s.cboxInfo i)).length generalizing s with
  | zero =>
    have hnil := List.length_eq_zero_iff.1 hn
    refine iff_of_true ⟨0, s, dropQueueIn_of_nil hnil⟩ ?_
    rw [hnil]
    exact fun d hd => absurd hd List.not_mem_nil
  | succ n ih =>
    rcases hlist : queue (s.cboxInfo i) with - | ⟨d, l⟩
    · rw [hlist] at hn
      cases hn
    have hcond : ((s.cboxInfo i).cboxDataInfo.entryNum != 0) = true := by
      show ((queue (s.cboxInfo i)).length != 0) = true
      rw [hn]
      rfl
    have hyields : ∀ t, (∃ fuel, dropQueueIn fuel s i = some t) ↔ ∃ s',
        inTempBuff (getPoolDate s i) = some s' ∧ ∃ fuel, dropQueueIn fuel s' i = some t :=
      fun _ => whileLoop_pass_iff hcond
    have hin := packed_inside hq hi (d := d) (by simp [hlist])
    obtain ⟨u, heq, htaken⟩ := getPoolDate_eq hi hlist hin
    have hread : (d.seg.read s.cboxDataPool.used).length = d.dataLength :=
      Seg.length_read (r := d.seg) (by rw [length_used]; exact hin)
    have hfits : (getPoolDate s i).1.length ≤ buffLen ↔ d.dataLength ≤ buffLen := by
      rw [heq, List.length_append, hread, List.length_replicate]
      omega
    have hu : (getPoolDate s i).2.2 = u := by rw [heq]
    have hrest : queue (u.cboxInfo i) = l.map (shiftDataAddr d) := by
      rw [htaken.list i hi, if_pos rfl]
    have hih := ih (s := u) (by rw [htaken.same.online]; exact hi)
      (htaken.queuesPacked hi hlist hq) (by rw [hrest, List.length_map]; simpa [hlist] using hn)
    rw [hrest] at hih
    simp only [List.forall_mem_map, shiftDataAddr_dataLength] at hih
    rw [List.forall_mem_cons, ← hih, ← hfits]
    constructor
    · rintro ⟨fuel, t, h⟩
      obtain ⟨s', hs', fuel', h'⟩ := (hyields t).1 ⟨fuel, h⟩
      obtain ⟨hle, rfl⟩ := inTempBuff_eq_some.1 hs'
      exact ⟨hle, fuel', t, hu ▸ h'⟩
    · rintro ⟨hle, fuel, t, h⟩
      obtain ⟨fuel', h'⟩ := (hyields t).2 ⟨u, inTempBuff_eq_some.2 ⟨hle, hu⟩, fuel, h⟩
      exact ⟨fuel', t, h'⟩

/-- A removal ends, with all copies inside, exactly if the records of the Cbox fit. -/
theorem removeCboxIn_iff {s : AboxInformation} {i : ℕ} (hi : i < s.cboxOnlineNum)
    (hq : QueuesPacked s) (hs : SavedPacked s) :
    (∃ fuel t, removeCboxIn fuel s i = some t) ↔ FitsTempBuff (s.cboxInfo i) := by
  have hnot : ¬ s.cboxOnlineNum ≤ i := Nat.not_le.2 hi
  unfold removeCboxIn FitsTempBuff
  rw [← dropSavedIn_iff hi hs]
  constructor
  · rintro ⟨fuel, t, h⟩
    rw [if_neg hnot] at h
    obtain ⟨u, hu, h⟩ := Option.bind_eq_some_iff.1 h
    obtain ⟨v, hv, -⟩ := Option.bind_eq_some_iff.1 h
    have hsame := dropSaved_sameQueues (dropSaved_of_in hu)
    have hlist : queue (u.cboxInfo i) = queue (s.cboxInfo i) := hsame.list i
    rw [← hlist]
    exact ⟨⟨fuel, u, hu⟩, (dropQueueIn_iff (by rw [hsame.online]; exact hi)
      (hsame.queuesPacked hq)).1 ⟨fuel, v, hv⟩⟩
  · rintro ⟨⟨n, u, hu⟩, hfit⟩
    have hsame := dropSaved_sameQueues (dropSaved_of_in hu)
    have hlist : queue (u.cboxInfo i) = queue (s.cboxInfo i) := hsame.list i
    rw [← hlist] at hfit
    obtain ⟨m, v, hv⟩ := (dropQueueIn_iff (by rw [hsame.online]; exact hi)
      (hsame.queuesPacked hq)).2 hfit
    have hu' : dropSavedIn (max n m) s i = some u :=
      whileLoop_mono (fun _ _ h => h) (le_max_left ..) hu
    have hv' : dropQueueIn (max n m) u i = some v :=
      whileLoop_mono (fun _ _ h => h) (le_max_right ..) hv
    refine ⟨max n m, moveCboxesDown v i, ?_⟩
    rw [if_neg hnot, hu']
    show (dropQueueIn (max n m) u i).bind _ = _
    rw [hv']
    rfl

/-! ## Cleaning -/

/-- What a Cbox brings with it decides whether its records fit. -/
theorem fitsTempBuff_iff {s : AboxInformation} {i : ℕ} (hi : i < s.cboxOnlineNum)
    (hq : QueuesPacked s) (hs : SavedPacked s) : FitsTempBuff (s.cboxInfo i) ↔
      (∀ n ∈ (kept s i).map List.length, n ≤ buffLen ∨ subgDataPoolSize ≤ n) ∧
        ∀ n ∈ (waiting s i).map List.length, n ≤ buffLen := by
  have hsaved : SavedFits (s.cboxInfo i) ↔
      ∀ d ∈ saved (s.cboxInfo i), d.dataLength ≤ buffLen ∨ subgDataPoolSize ≤ d.dataLength := by
    by_cases h0 : (s.cboxInfo i).subgDataInfo.dataLength = 0
    · rw [saved_of_eq h0]
      refine iff_of_true (Or.inl ?_) fun d hd => absurd hd List.not_mem_nil
      rw [h0]
      exact Nat.zero_le _
    · rw [saved_of_ne h0, List.forall_mem_singleton]
      rfl
  have hin : ∀ d ∈ saved (s.cboxInfo i), d.seg.Inside s.subgDataPool.used.length := by
    intro d hd
    rw [length_used]
    exact hs.inside hi hd
  have hin' : ∀ d ∈ queue (s.cboxInfo i), d.seg.Inside s.cboxDataPool.used.length := by
    intro d hd
    rw [length_used]
    exact packed_inside hq hi hd
  unfold FitsTempBuff kept waiting
  rw [readEach_lengths hin, readEach_lengths hin', hsaved, List.forall_mem_map,
    List.forall_mem_map]

theorem noRecords_iff {s : AboxInformation} {i : ℕ} :
    NoRecords (s.cboxInfo i) ↔ waiting s i = [] ∧ kept s i = [] := by
  unfold NoRecords waiting kept readEach
  rw [List.map_eq_nil_iff, List.map_eq_nil_iff]

/-- `cleanCbox` has been started in the state `s` and is at the index `i`: the slots
    before `i` are wiped, and from there on every slot holds the Cbox that was `i`
    slots behind. -/
structure Cleaning (s : AboxInformation) (p : AboxInformation × ℕ) : Prop where
  online : p.1.cboxOnlineNum + p.2 = s.cboxOnlineNum
  queuesPacked : QueuesPacked p.1
  savedPacked : SavedPacked p.1
  waiting : ∀ j, p.2 ≤ j → j < p.1.cboxOnlineNum → waiting p.1 j = waiting s (p.2 + j)
  kept : ∀ j, p.2 ≤ j → j < p.1.cboxOnlineNum → kept p.1 j = kept s (p.2 + j)
  noRecords : ∀ j, j < p.2 ∨ p.1.cboxOnlineNum ≤ j → NoRecords (p.1.cboxInfo j)

theorem Cleaning.step {s : AboxInformation} {p p' : AboxInformation × ℕ} {fuel : ℕ}
    (h : Cleaning s p) (hi : p.2 < p.1.cboxOnlineNum) (hp : cleanOneIn fuel p = some p') :
    Cleaning s p' := by
  obtain ⟨t, ht, rfl⟩ := Option.map_eq_some_iff.1 hp
  obtain ⟨u, i⟩ := p
  have hrem := removeCbox_removed hi h.queuesPacked h.savedPacked (removeCbox_of_in ht)
  have hn := hrem.online
  have hun := h.online
  dsimp only at hi hn hun
  have hslot : ∀ j, j ≠ i →
      (t.modifyCbox i fun _ => CboxInformation.zero).cboxInfo j = t.cboxInfo j := by
    intro j hji
    rw [AboxInformation.modifyCbox_cboxInfo, if_neg hji]
  have hskip : ∀ j, i + 1 ≤ j → skip i j = j + 1 := fun j hj => if_neg (by omega)
  refine ⟨?_, packed_wipe (f := queue) rfl hrem.queuesPacked,
    packed_wipe (f := saved) rfl hrem.savedPacked, fun j hj hjn => ?_, fun j hj hjn => ?_,
    fun j hj => ?_⟩
  · show t.cboxOnlineNum + (i + 1) = s.cboxOnlineNum
    omega
  · change i + 1 ≤ j at hj
    change j < t.cboxOnlineNum at hjn
    have hwiped : Radio.waiting (t.modifyCbox i fun _ => CboxInformation.zero) j =
        Radio.waiting t j := by
      unfold Radio.waiting
      rw [hslot j (by omega)]
      rfl
    have hmoved : Radio.waiting t j = Radio.waiting u (j + 1) := by
      rw [← hskip j hj]
      exact hrem.waiting j hjn
    have hold : Radio.waiting u (j + 1) = Radio.waiting s (i + (j + 1)) :=
      h.waiting (j + 1) (show i ≤ j + 1 by omega) (show j + 1 < u.cboxOnlineNum by omega)
    show Radio.waiting (t.modifyCbox i _) j = Radio.waiting s (i + 1 + j)
    rw [hwiped, hmoved, hold, show i + 1 + j = i + (j + 1) by omega]
  · change i + 1 ≤ j at hj
    change j < t.cboxOnlineNum at hjn
    have hwiped : Radio.kept (t.modifyCbox i fun _ => CboxInformation.zero) j = Radio.kept t j := by
      unfold Radio.kept
      rw [hslot j (by omega)]
      rfl
    have hmoved : Radio.kept t j = Radio.kept u (j + 1) := by
      rw [← hskip j hj]
      exact hrem.kept j hjn
    have hold : Radio.kept u (j + 1) = Radio.kept s (i + (j + 1)) :=
      h.kept (j + 1) (show i ≤ j + 1 by omega) (show j + 1 < u.cboxOnlineNum by omega)
    show Radio.kept (t.modifyCbox i _) j = Radio.kept s (i + 1 + j)
    rw [hwiped, hmoved, hold, show i + 1 + j = i + (j + 1) by omega]
  · by_cases hji : j = i
    · subst hji
      rw [AboxInformation.modifyCbox_cboxInfo, if_pos rfl]
      exact ⟨rfl, rfl⟩
    · rw [hslot j hji]
      by_cases hjn : j < t.cboxOnlineNum
      · have hlt : j < i := by
          rcases hj with hj | hj
          · change j < i + 1 at hj
            omega
          · exact absurd hjn (Nat.not_lt.2 hj)
        have hold := noRecords_iff.1 (h.noRecords j (Or.inl hlt))
        have hkeep : skip i j = j := if_pos hlt
        rw [noRecords_iff, hrem.waiting j hjn, hrem.kept j hjn, hkeep]
        exact hold
      · exact hrem.offline (fun k hk => h.noRecords k (Or.inr hk)) (Nat.le_of_not_lt hjn)

theorem cleanOneIn_mono {fuel fuel' : ℕ} {p p' : AboxInformation × ℕ} (hf : fuel ≤ fuel')
    (h : cleanOneIn fuel p = some p') : cleanOneIn fuel' p = some p' := by
  obtain ⟨t, ht, rfl⟩ := Option.map_eq_some_iff.1 h
  exact Option.map_eq_some_iff.2 ⟨t, removeCboxIn_mono hf ht, rfl⟩

/-- The loop ends, with all copies inside, exactly if the records of every other Cbox
    fit, from the one at the index on. -/
theorem Cleaning.ends_iff {s : AboxInformation} (hq : QueuesPacked s) (hs : SavedPacked s)
    {p : AboxInformation × ℕ} (h : Cleaning s p) :
    (∃ p' fuel, whileLoop cleanGoesOn (cleanOneIn fuel) fuel p = some p') ↔
      ∀ k, p.2 ≤ k → 2 * k < s.cboxOnlineNum → FitsTempBuff (s.cboxInfo (2 * k)) := by
  induction hn : p.1.cboxOnlineNum using Nat.strong_induction_on generalizing p with
  | _ n ih =>
  have hsum := h.online
  by_cases hi : p.2 < p.1.cboxOnlineNum
  · have hcond : cleanGoesOn p = true := decide_eq_true hi
    have hyields : ∀ p', (∃ fuel, whileLoop cleanGoesOn (cleanOneIn fuel) fuel p = some p') ↔
        ∃ fuel q, cleanOneIn fuel p = some q ∧
          ∃ fuel, whileLoop cleanGoesOn (cleanOneIn fuel) fuel q = some p' :=
      fun _ => @whileLoop_yields_iff _ cleanGoesOn cleanOneIn
        (fun _ _ _ _ hf h => cleanOneIn_mono hf h) _ _ hcond
    have hown : 2 * p.2 < s.cboxOnlineNum := by omega
    have hfits : (∃ fuel t, removeCboxIn fuel p.1 p.2 = some t) ↔
        FitsTempBuff (s.cboxInfo (2 * p.2)) := by
      rw [removeCboxIn_iff hi h.queuesPacked h.savedPacked,
        fitsTempBuff_iff hi h.queuesPacked h.savedPacked, fitsTempBuff_iff hown hq hs,
        h.waiting p.2 le_rfl hi, h.kept p.2 le_rfl hi, two_mul]
    have hnext : ∀ fuel q, cleanOneIn fuel p = some q →
        ((∃ p' fuel, whileLoop cleanGoesOn (cleanOneIn fuel) fuel q = some p') ↔
          ∀ k, p.2 + 1 ≤ k → 2 * k < s.cboxOnlineNum → FitsTempBuff (s.cboxInfo (2 * k))) := by
      intro fuel q hcq
      have hclean := h.step hi hcq
      have hsum' := hclean.online
      have hidx : q.2 = p.2 + 1 := by
        obtain ⟨t, -, rfl⟩ := Option.map_eq_some_iff.1 hcq
        rfl
      rw [← hidx]
      exact ih _ (by omega) hclean rfl
    constructor
    · rintro ⟨p', hp'⟩ k hk hkn
      obtain ⟨fuel, q, hcq, hrest⟩ := (hyields p').1 hp'
      by_cases hki : k = p.2
      · subst hki
        obtain ⟨t, ht, -⟩ := Option.map_eq_some_iff.1 hcq
        exact hfits.1 ⟨fuel, t, ht⟩
      · exact (hnext fuel q hcq).1 ⟨p', hrest⟩ k (by omega) hkn
    · intro hall
      obtain ⟨fuel, t, ht⟩ := hfits.2 (hall p.2 le_rfl hown)
      have hcq : cleanOneIn fuel p = some _ := Option.map_eq_some_iff.2 ⟨t, ht, rfl⟩
      obtain ⟨p', hrest⟩ := (hnext fuel _ hcq).2 fun k hk hkn => hall k (by omega) hkn
      exact ⟨p', (hyields p').2 ⟨fuel, _, hcq, hrest⟩⟩
  · -- every slot from the index on has been closed
    have hcond : cleanGoesOn p = false := decide_eq_false hi
    exact iff_of_true ⟨p, 0, whileLoop_of_not hcond 0⟩ fun k hk hkn => by omega

/-- Copies that stay inside do what the model without the bound says. -/
theorem cleanCbox_of_in {fuel : ℕ} {s t : AboxInformation} (h : cleanCboxIn fuel s = some t) :
    cleanCbox fuel s = some t := by
  obtain ⟨p, hp, rfl⟩ := Option.map_eq_some_iff.1 h
  unfold cleanCbox
  refine Option.bind_eq_some_iff.2 ⟨p, ?_, rfl⟩
  refine whileLoop_mono (fun q q' hq => ?_) le_rfl hp
  obtain ⟨u, hu, rfl⟩ := Option.map_eq_some_iff.1 hq
  exact Option.map_eq_some_iff.2 ⟨u, removeCbox_of_in hu, rfl⟩

/-! ## Removal and cleaning -/

/-- The records of the two pools are disjoint, in range and cover the pools, and the
    slots that are not online have none. -/
structure WellKept (s : AboxInformation) : Prop where
  ledger : Ledger s
  savedLedger : SavedLedger s
  offline : ∀ j, s.cboxOnlineNum ≤ j → NoRecords (s.cboxInfo j)

/-- No Cbox is online, both pools are empty, and no slot has records. -/
structure Cleaned (t : AboxInformation) : Prop where
  online : t.cboxOnlineNum = 0
  queuePool : t.cboxDataPool.entrySize = 0
  savedPool : t.subgDataPool.entrySize = 0
  noRecords : ∀ j, NoRecords (t.cboxInfo j)

/-- The start of `cleanCbox`. -/
theorem WellKept.cleaning {s : AboxInformation} (h : WellKept s) :
    Cleaning s ({ s with packageSendNum := 0, packageWrongNum := 0 }, 0) := by
  refine ⟨rfl, h.ledger.1, h.savedLedger.1, fun j _ _ => ?_, fun j _ _ => ?_, fun j hj => ?_⟩
  · rw [Nat.zero_add]
    rfl
  · rw [Nat.zero_add]
    rfl
  · exact h.offline j (hj.resolve_left (Nat.not_lt_zero j))

/-- `cleanCbox` ends, with all copies inside, exactly if the records of every other
    Cbox fit. -/
theorem WellKept.cleanCboxIn_iff {s : AboxInformation} (h : WellKept s) :
    (∃ t fuel, cleanCboxIn fuel s = some t) ↔
      ∀ k, 2 * k < s.cboxOnlineNum → FitsTempBuff (s.cboxInfo (2 * k)) := by
  have hends := h.cleaning.ends_iff h.ledger.1 h.savedLedger.1
  simp only [Nat.zero_le, true_implies] at hends
  rw [← hends]
  constructor
  · rintro ⟨t, fuel, ht⟩
    obtain ⟨p, hp, -⟩ := Option.map_eq_some_iff.1 ht
    exact ⟨p, fuel, hp⟩
  · rintro ⟨p, fuel, hp⟩
    exact ⟨_, fuel, Option.map_eq_some_iff.2 ⟨p, hp, rfl⟩⟩

/-- What it ends with. -/
theorem WellKept.cleaned {s t : AboxInformation} (h : WellKept s) {fuel : ℕ}
    (ht : cleanCboxIn fuel s = some t) : Cleaned t := by
  obtain ⟨p, hp, rfl⟩ := Option.map_eq_some_iff.1 ht
  obtain ⟨hclean, hcond⟩ := whileLoop_inv (Cleaning s)
    (fun q q' hq hgo hq' => hq.step (of_decide_eq_true hgo) hq') hp h.cleaning
  have hstop : p.1.cboxOnlineNum ≤ p.2 := Nat.le_of_not_lt (of_decide_eq_false hcond)
  refine ⟨rfl, rfl, rfl, fun j => hclean.noRecords j ?_⟩
  by_cases hj : j < p.2
  · exact Or.inl hj
  · exact Or.inr (by omega)

/-- In every state that is kept well: each online Cbox is removed, alone and with its
    bytes, in a state that is kept well again, and `cleanCbox` leaves nothing, exactly
    if all records of the Cbox, and of every other Cbox, fit into `tempBuff`. -/
theorem removal_iff {s : AboxInformation} (h : WellKept s) :
    (∀ i < s.cboxOnlineNum, (∃ t fuel, removeCboxIn fuel s i = some t ∧ Removed s t i ∧
      WellKept t) ↔ FitsTempBuff (s.cboxInfo i)) ∧
    ((∃ t fuel, cleanCboxIn fuel s = some t ∧ Cleaned t) ↔
      ∀ k, 2 * k < s.cboxOnlineNum → FitsTempBuff (s.cboxInfo (2 * k))) := by
  have hq : QueuesPacked s := h.ledger.1
  have hs : SavedPacked s := h.savedLedger.1
  constructor
  · intro i hi
    rw [← removeCboxIn_iff hi hq hs]
    constructor
    · rintro ⟨t, fuel, ht, -⟩
      exact ⟨fuel, t, ht⟩
    · rintro ⟨fuel, t, ht⟩
      have hrem := removeCbox_removed hi hq hs (removeCbox_of_in ht)
      exact ⟨t, fuel, ht, hrem, hrem.ledger h.ledger, hrem.savedLedger h.savedLedger,
        fun j => hrem.offline h.offline⟩
  · rw [← h.cleanCboxIn_iff]
    constructor
    · rintro ⟨t, fuel, ht, -⟩
      exact ⟨t, fuel, ht⟩
    · rintro ⟨t, fuel, ht⟩
      exact ⟨t, fuel, ht, h.cleaned ht⟩

/-! ## States that are well kept -/

theorem wellKept_init : WellKept initAboxInformation :=
  ⟨ledger_init, Tiles.nil, fun _ _ => ⟨rfl, rfl⟩⟩

theorem WellKept.addCbox {s : AboxInformation} (h : WellKept s)
    (p_dev_id : Fin devidTypeNum → BitVec 32) : WellKept (addCbox s p_dev_id).2 := by
  refine ⟨addCbox_ledger p_dev_id h.ledger, ?_, ?_⟩
  · rcases addCbox_cases s p_dev_id with heq | ⟨hn, -, hpool, hold, -, hnew, -⟩
    · rw [heq]
      exact h.savedLedger
    · unfold SavedLedger
      rw [hpool, records_addCbox hn hold hnew]
      exact h.savedLedger
  · unfold Radio.addCbox
    dsimp only
    split_ifs
    · exact h.offline
    · intro j hj
      have hlt : s.cboxOnlineNum < j := hj
      dsimp only
      rw [Function.update_of_ne hlt.ne']
      exact h.offline j hlt.le

theorem WellKept.recvServerData {s : AboxInformation} (h : WellKept s) (recv : List Byte) :
    WellKept (recvServerData s recv).2 := by
  rcases recvServerData_cases s recv with ⟨heq, -⟩ | ⟨-, heq, -⟩ | ⟨-, i, t, heq, hi, h0, -, hput⟩
  · rw [heq]
    exact h
  · rw [heq]
    exact h
  · rw [heq]
    have hlt := findCbox_lt hi
    refine ⟨hput.ledger hlt (by rwa [length_readN]) ?_ h.ledger, ?_, fun j hj => ⟨?_, ?_⟩⟩
    · rw [length_readN]
      exact List.perm_append_singleton ..
    · unfold SavedLedger
      rw [hput.same.pool, hput.same.records]
      exact h.savedLedger
    · have hj' : s.cboxOnlineNum ≤ j := hput.same.online ▸ hj
      rw [hput.list, if_neg (by omega)]
      exact (h.offline j hj').1
    · unfold saved
      rw [hput.same.info]
      exact (h.offline j (hput.same.online ▸ hj)).2

theorem WellKept.saveCboxRecv {s : AboxInformation} (h : WellKept s) {i n : ℕ}
    (hi : i < s.cboxOnlineNum) (hnone : saved (s.cboxInfo i) = []) (cboxRecv : List Byte)
    (hroom : RoomFor s.subgDataPool (n % 2 ^ 16)) : WellKept (saveCboxRecv s i cboxRecv n) := by
  have hst := saveCboxRecv_of_roomFor i cboxRecv hroom
  refine ⟨hst.same.ledger_congr.2 h.ledger, ?_, fun j hj => ⟨?_, ?_⟩⟩
  · have hown : saved ((Radio.saveCboxRecv s i cboxRecv n).cboxInfo i) =
        [nextRecord s.subgDataPool (n % 2 ^ 16)] := by
      have hlast := hst.own
      rw [length_readN] at hlast
      rw [← hlast]
      exact saved_of_ne (by rw [hlast]; exact hroom.1.ne')
    have hold : (records saved s).Perm (saved (s.cboxInfo i) ++ others saved s i) :=
      records_perm hi
    have hnew := records_saved_perm hst.same.online hi fun j hji => hst.saved_eq hji
    rw [hnone, List.nil_append] at hold
    rw [hown] at hnew
    unfold SavedLedger
    rw [hst.entrySize, length_readN]
    exact ((h.savedLedger.perm (hold.map _)).append hroom.1).perm (hnew.map DataInfo.seg).symm
  · rw [hst.same.list]
    exact (h.offline j (hst.same.online ▸ hj)).1
  · have hj' : s.cboxOnlineNum ≤ j := hst.same.online ▸ hj
    rw [hst.saved_eq (by omega)]
    exact (h.offline j hj').2

/-! ## A removal, and a record that is too long -/

/-- Three Cboxes have registered, and frames have arrived for two of them. -/
def threeQueues : AboxInformation :=
  [frameTo1, frameTo2, frameTo1, frameTo2].foldl (fun s recv => (recvServerData s recv).2)
    ([1, 2, 3].foldl (fun s id => (addCbox s fun _ => id).2) initAboxInformation)

/-- Polls of the last two of them have left bytes behind. -/
def threeCboxes : AboxInformation :=
  saveCboxRecv (saveCboxRecv threeQueues 2 frameTo1 7) 1 frameTo2 5

theorem wellKept_threeCboxes : WellKept threeCboxes := by
  have hthree : WellKept threeQueues :=
    ((((((wellKept_init.addCbox _).addCbox _).addCbox _).recvServerData _).recvServerData
      _).recvServerData _).recvServerData _
  have hone : WellKept (saveCboxRecv threeQueues 2 frameTo1 7) :=
    hthree.saveCboxRecv (by decide +kernel) (by decide +kernel) _ (by decide +kernel)
  exact hone.saveCboxRecv (by decide +kernel) (by decide +kernel) _ (by decide +kernel)

/-- The Cbox in the middle is taken out with its two frames and its bytes, and all of them. -/
theorem removal_threeCboxes :
    (∃ t fuel, removeCboxIn fuel threeCboxes 1 = some t ∧ Removed threeCboxes t 1 ∧ WellKept t) ∧
      ∃ t fuel, cleanCboxIn fuel threeCboxes = some t ∧ Cleaned t := by
  have hfits : ∀ i < 3, FitsTempBuff (threeCboxes.cboxInfo i) := by
    intro i hi
    refine ⟨Or.inl ?_, ?_⟩ <;> revert i <;> decide +kernel
  have hthree : threeCboxes.cboxOnlineNum = 3 := by decide +kernel
  obtain ⟨hremove, hclean⟩ := removal_iff wellKept_threeCboxes
  rw [hthree] at hremove hclean
  exact ⟨(hremove 1 (by decide)).2 (hfits 1 (by decide)),
    hclean.2 fun k hk => hfits (2 * k) hk⟩

/-- A Cbox with the id 1 has registered, and a frame has arrived. -/
def afterFrame (recv : List Byte) : AboxInformation :=
  (recvServerData (addCbox initAboxInformation fun _ => 1).2 recv).2

theorem wellKept_afterFrame (recv : List Byte) : WellKept (afterFrame recv) :=
  (wellKept_init.addCbox _).recvServerData recv

/-- A frame of 1025 bytes for the Cbox with the id 1. -/
def longFrameTo1 : List Byte := [0x23, 0x20, 1, 0, 0, 0, 0xF7, 0x03] ++ List.replicate 1017 0

/-- It does not fit into `tempBuff`. -/
theorem removal_long : WellKept (afterFrame longFrameTo1) ∧
    (afterFrame longFrameTo1).cboxOnlineNum = 1 ∧
    (∀ fuel, removeCboxIn fuel (afterFrame longFrameTo1) 0 = none) ∧
    ∀ fuel, cleanCboxIn fuel (afterFrame longFrameTo1) = none := by
  have hkept := wellKept_afterFrame longFrameTo1
  have honline : (afterFrame longFrameTo1).cboxOnlineNum = 1 := by decide +kernel
  have hqueue : queue ((afterFrame longFrameTo1).cboxInfo 0) = [⟨0, 1025⟩] := by decide +kernel
  have hlong : ¬ FitsTempBuff ((afterFrame longFrameTo1).cboxInfo 0) := by
    rintro ⟨-, hfit⟩
    rw [hqueue] at hfit
    exact absurd hfit (by decide)
  refine ⟨hkept, honline, fun fuel => ?_, fun fuel => ?_⟩
  · rw [Option.eq_none_iff_forall_ne_some]
    intro t ht
    exact hlong ((removeCboxIn_iff (by omega) hkept.ledger.1 hkept.savedLedger.1).1 ⟨fuel, t, ht⟩)
  · rw [Option.eq_none_iff_forall_ne_some]
    intro t ht
    exact hlong (hkept.cleanCboxIn_iff.1 ⟨t, fuel, ht⟩ 0 (by omega))

end Abox.Radio
