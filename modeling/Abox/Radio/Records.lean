import Abox.Radio.Cbox

/-!
# The records of the two pools

What the Cbox functions of `Abox.Radio.Cbox` do to the records that describe
the pools: the server frames waiting for a Cbox (`queue`) and the radio data
saved for it (`saved`).

* `recvServerData_cases`, `requeue_cases`: a frame is put into a queue or
  nothing changes.
* `getPoolDate_eq`: the first frame of a queue is taken out.
* `processExistingData_eq`: the saved radio data of a Cbox is taken out.
* `removeCbox_eq`: a removed Cbox takes its records with it.
-/

namespace Abox.Radio

open Segments Loops

/-! ## Records of the online Cboxes -/

/-- The server frames waiting for a Cbox. -/
def queue (c : CboxInformation) : List DataInfo := c.cboxDataInfo.cboxDataList

/-- The radio data saved for a Cbox. -/
def saved (c : CboxInformation) : List DataInfo :=
  if c.subgDataInfo.dataLength = 0 then [] else [c.subgDataInfo]

/-- The records of all online Cboxes, `f` being `queue` or `saved`. -/
def records (f : CboxInformation → List DataInfo) (s : AboxInformation) : List DataInfo :=
  (List.range s.cboxOnlineNum).flatMap fun i => f (s.cboxInfo i)

/-- The slot that becomes slot `j` once slot `i` is removed. -/
def skip (i j : ℕ) : ℕ := if j < i then j else j + 1

/-- The records of the online Cboxes other than the one in slot `i`. -/
def others (f : CboxInformation → List DataInfo) (s : AboxInformation) (i : ℕ) :
    List DataInfo :=
  (List.range (s.cboxOnlineNum - 1)).flatMap fun j => f (s.cboxInfo (skip i j))

theorem skip_ne (i j : ℕ) : skip i j ≠ i := by
  unfold skip; split_ifs <;> omega

theorem skip_lt {i j n : ℕ} (hi : i < n) (hj : j < n - 1) : skip i j < n := by
  unfold skip; split_ifs <;> omega

theorem skip_injective (i : ℕ) : Function.Injective (skip i) := by
  intro j k h
  unfold skip at h
  split_ifs at h <;> omega

theorem range_perm_skip {i n : ℕ} (hi : i < n) :
    (List.range n).Perm (i :: (List.range (n - 1)).map (skip i)) := by
  refine (List.perm_ext_iff_of_nodup List.nodup_range ?_).2 fun k => ?_
  · refine List.nodup_cons.2 ⟨?_, List.nodup_range.map (skip_injective i)⟩
    intro h
    obtain ⟨j, -, hj⟩ := List.mem_map.1 h
    exact skip_ne i j hj
  · simp only [List.mem_range, List.mem_cons, List.mem_map]
    constructor
    · intro hk
      by_cases hki : k = i
      · exact Or.inl hki
      · refine Or.inr ⟨if k < i then k else k - 1, ?_, ?_⟩
        · split_ifs <;> omega
        · unfold skip; split_ifs <;> omega
    · rintro (rfl | ⟨j, hj, rfl⟩)
      · exact hi
      · exact skip_lt hi hj

/-- The records are those of one Cbox and those of the others. -/
theorem records_perm {f : CboxInformation → List DataInfo} {s : AboxInformation} {i : ℕ}
    (hi : i < s.cboxOnlineNum) :
    (records f s).Perm (f (s.cboxInfo i) ++ others f s i) := by
  have h := (range_perm_skip hi).flatMap_right fun j => f (s.cboxInfo j)
  simpa [records, others, List.flatMap_map] using h

theorem records_congr {f : CboxInformation → List DataInfo} {s s' : AboxInformation}
    (hn : s'.cboxOnlineNum = s.cboxOnlineNum)
    (h : ∀ j < s.cboxOnlineNum, f (s'.cboxInfo j) = f (s.cboxInfo j)) :
    records f s' = records f s := by
  unfold records
  rw [hn]
  exact List.flatMap_congr fun j hj => h j (List.mem_range.1 hj)

theorem others_map {f : CboxInformation → List DataInfo} {s s' : AboxInformation} {i : ℕ}
    {g : DataInfo → DataInfo} (hn : s'.cboxOnlineNum = s.cboxOnlineNum)
    (hi : i < s.cboxOnlineNum)
    (h : ∀ j < s.cboxOnlineNum, j ≠ i → f (s'.cboxInfo j) = (f (s.cboxInfo j)).map g) :
    others f s' i = (others f s i).map g := by
  unfold others
  rw [hn, List.map_flatMap]
  exact List.flatMap_congr fun j hj =>
    h _ (skip_lt hi (List.mem_range.1 hj)) (skip_ne i j)

theorem others_congr {f : CboxInformation → List DataInfo} {s s' : AboxInformation} {i : ℕ}
    (hn : s'.cboxOnlineNum = s.cboxOnlineNum) (hi : i < s.cboxOnlineNum)
    (h : ∀ j < s.cboxOnlineNum, j ≠ i → f (s'.cboxInfo j) = f (s.cboxInfo j)) :
    others f s' i = others f s i := by
  unfold others
  rw [hn]
  exact List.flatMap_congr fun j hj => h _ (skip_lt hi (List.mem_range.1 hj)) (skip_ne i j)

theorem mem_records {f : CboxInformation → List DataInfo} {s : AboxInformation} {i : ℕ}
    {d : DataInfo} (hi : i < s.cboxOnlineNum) (hd : d ∈ f (s.cboxInfo i)) : d ∈ records f s :=
  List.mem_flatMap.2 ⟨i, List.mem_range.2 hi, hd⟩

theorem mem_others {f : CboxInformation → List DataInfo} {s : AboxInformation} {i k : ℕ}
    {d : DataInfo} (hi : i < s.cboxOnlineNum) (hk : k < s.cboxOnlineNum) (hki : k ≠ i)
    (hd : d ∈ f (s.cboxInfo k)) : d ∈ others f s i := by
  have hmem : k ∈ i :: (List.range (s.cboxOnlineNum - 1)).map (skip i) :=
    (range_perm_skip hi).mem_iff.1 (List.mem_range.2 hk)
  obtain ⟨j, hj, rfl⟩ := List.mem_map.1 ((List.mem_cons.1 hmem).resolve_left hki)
  exact List.mem_flatMap.2 ⟨j, hj, hd⟩

section Packed

variable {f : CboxInformation → List DataInfo} {s : AboxInformation} {n i k : ℕ} {d e : DataInfo}

theorem packed_inside (h : Packed n ((records f s).map DataInfo.seg)) (hi : i < s.cboxOnlineNum)
    (hd : d ∈ f (s.cboxInfo i)) : d.seg.Inside n :=
  h.1 _ (List.mem_map_of_mem (mem_records hi hd))

/-- The records, those of slot `i` first. -/
theorem packed_split (h : Packed n ((records f s).map DataInfo.seg)) (hi : i < s.cboxOnlineNum) :
    Packed n ((f (s.cboxInfo i) ++ others f s i).map DataInfo.seg) :=
  h.perm ((records_perm hi).map _)

theorem packed_apart (h : Packed n ((records f s).map DataInfo.seg)) (hi : i < s.cboxOnlineNum)
    (hk : k < s.cboxOnlineNum) (hki : k ≠ i) (hd : d ∈ f (s.cboxInfo i))
    (he : e ∈ f (s.cboxInfo k)) : d.seg.Apart e.seg := by
  have hsplit := (packed_split h hi).2
  rw [List.map_append, List.pairwise_append] at hsplit
  exact hsplit.2.2 _ (List.mem_map_of_mem hd) _ (List.mem_map_of_mem (mem_others hi hk hki he))

end Packed

theorem shiftDataAddr_dataLength (d e : DataInfo) :
    (shiftDataAddr d e).dataLength = e.dataLength := by
  unfold shiftDataAddr
  split_ifs <;> rfl

theorem seg_shiftDataAddr (d e : DataInfo) : (shiftDataAddr d e).seg = Seg.closeUp d.seg e.seg := by
  unfold shiftDataAddr Seg.closeUp DataInfo.seg
  by_cases h : e.dataAddr > d.dataAddr
  · simp [h]
  · simp [h]

theorem map_seg_shift (d : DataInfo) (l : List DataInfo) :
    (l.map (shiftDataAddr d)).map DataInfo.seg = (l.map DataInfo.seg).map (Seg.closeUp d.seg) := by
  simp [List.map_map, Function.comp_def, seg_shiftDataAddr]

/-! ## Frames of the two halves -/

/-- The two states have the same queues and the same pool of server frames. -/
structure SameQueues (s s' : AboxInformation) : Prop where
  online : s'.cboxOnlineNum = s.cboxOnlineNum
  pool : s'.cboxDataPool = s.cboxDataPool
  list : ∀ j, queue (s'.cboxInfo j) = queue (s.cboxInfo j)

/-- The two states have the same saved radio data and the same pool of it. -/
structure SameSaved (s s' : AboxInformation) : Prop where
  online : s'.cboxOnlineNum = s.cboxOnlineNum
  pool : s'.subgDataPool = s.subgDataPool
  info : ∀ j, (s'.cboxInfo j).subgDataInfo = (s.cboxInfo j).subgDataInfo

theorem SameQueues.refl (s : AboxInformation) : SameQueues s s := ⟨rfl, rfl, fun _ => rfl⟩

theorem SameSaved.refl (s : AboxInformation) : SameSaved s s := ⟨rfl, rfl, fun _ => rfl⟩

theorem SameQueues.trans {s t u : AboxInformation} (h : SameQueues s t) (h' : SameQueues t u) :
    SameQueues s u :=
  ⟨h'.online.trans h.online, h'.pool.trans h.pool, fun j => (h'.list j).trans (h.list j)⟩

theorem SameSaved.trans {s t u : AboxInformation} (h : SameSaved s t) (h' : SameSaved t u) :
    SameSaved s u :=
  ⟨h'.online.trans h.online, h'.pool.trans h.pool, fun j => (h'.info j).trans (h.info j)⟩

theorem sameQueues_modifyCbox (s : AboxInformation) (i : ℕ)
    {f : CboxInformation → CboxInformation} (hf : ∀ c, (f c).cboxDataInfo = c.cboxDataInfo) :
    SameQueues s (s.modifyCbox i f) := by
  refine ⟨rfl, rfl, fun j => ?_⟩
  unfold queue
  rw [AboxInformation.modifyCbox_cboxInfo]
  split_ifs
  · rw [hf]
  · rfl

theorem sameSaved_modifyCbox (s : AboxInformation) (i : ℕ)
    {f : CboxInformation → CboxInformation} (hf : ∀ c, (f c).subgDataInfo = c.subgDataInfo) :
    SameSaved s (s.modifyCbox i f) := by
  refine ⟨rfl, rfl, fun j => ?_⟩
  rw [AboxInformation.modifyCbox_cboxInfo]
  split_ifs
  · exact hf _
  · rfl

theorem SameQueues.records {s s' : AboxInformation} (h : SameQueues s s') :
    records queue s' = records queue s := records_congr h.online fun j _ => h.list j

theorem SameSaved.records {s s' : AboxInformation} (h : SameSaved s s') :
    Radio.records saved s' = Radio.records saved s :=
  records_congr h.online fun j _ => by simp only [saved, h.info j]

/-! ## Putting a frame into a queue -/

/-- `bytes` are appended to the pool of server frames and the queue of slot `i`
    becomes `l`. -/
structure Put (s s' : AboxInformation) (i : ℕ) (bytes : List Byte) (l : List DataInfo) : Prop where
  same : SameSaved s s'
  entrySize : s'.cboxDataPool.entrySize = s.cboxDataPool.entrySize + bytes.length
  used : s'.cboxDataPool.used = s.cboxDataPool.used ++ bytes
  list : ∀ j, queue (s'.cboxInfo j) = if j = i then l else queue (s.cboxInfo j)
  devid : ∀ j, (s'.cboxInfo j).devidCollection = (s.cboxInfo j).devidCollection

/-- The descriptor of the next record of length `n`. -/
def nextRecord {poolSize : ℕ} (p : PoolSetting poolSize) (n : ℕ) : DataInfo := ⟨p.entrySize, n⟩

/-- A frame is addressed to a Cbox whose list has room for it, but the pool has
    not. -/
def NoRoom (s : AboxInformation) (recv : List Byte) : Prop :=
  ∃ i, s.findCbox (StPackCmd.ofBytes recv).id = some i ∧
    (queue (s.cboxInfo i)).length < cboxMaxDataList ∧
    ((StPackCmd.ofBytes recv).frameLen = 0 ∨
      cboxDataPoolSize < s.cboxDataPool.entrySize + (StPackCmd.ofBytes recv).frameLen)

theorem findCbox_lt {s : AboxInformation} {id : BitVec 32} {i : ℕ} (h : s.findCbox id = some i) :
    i < s.cboxOnlineNum := List.mem_range.1 (List.mem_of_find?_eq_some h)

theorem noRoom_iff {s : AboxInformation} {recv : List Byte} {i : ℕ}
    (hf : s.findCbox (StPackCmd.ofBytes recv).id = some i) :
    NoRoom s recv ↔ (queue (s.cboxInfo i)).length < cboxMaxDataList ∧
      WritePool s.cboxDataPool recv (StPackCmd.ofBytes recv).frameLen = none := by
  rw [WritePool_eq_none_iff]
  constructor
  · rintro ⟨i', hi', h⟩
    rw [hf] at hi'
    obtain rfl := Option.some.inj hi'
    exact h
  · exact fun h => ⟨i, hf, h⟩

/-- What one call of `recvServerData` does. -/
theorem recvServerData_cases (s : AboxInformation) (recv : List Byte) :
    (recvServerData s recv = (.rtError, s) ∧ NoRoom s recv) ∨
    (¬ NoRoom s recv ∧ recvServerData s recv = (.rtEok, s) ∧
      ∀ i, s.findCbox (StPackCmd.ofBytes recv).id = some i →
        cboxMaxDataList ≤ (queue (s.cboxInfo i)).length) ∨
    (¬ NoRoom s recv ∧ ∃ i s', recvServerData s recv = (.rtEok, s') ∧
      s.findCbox (StPackCmd.ofBytes recv).id = some i ∧ 0 < (StPackCmd.ofBytes recv).frameLen ∧
      (queue (s.cboxInfo i)).length < cboxMaxDataList ∧
      Put s s' i (readN recv (StPackCmd.ofBytes recv).frameLen)
        (queue (s.cboxInfo i) ++
          [nextRecord s.cboxDataPool (StPackCmd.ofBytes recv).frameLen])) := by
  rcases hf : s.findCbox (StPackCmd.ofBytes recv).id with - | i
  · refine Or.inr (Or.inl ⟨?_, by simp [recvServerData, hf], by simp⟩)
    rintro ⟨i, hi, -⟩
    rw [hf] at hi
    cases hi
  rw [noRoom_iff hf]
  by_cases hlt : (queue (s.cboxInfo i)).length < cboxMaxDataList
  · have hlt' : (s.cboxInfo i).cboxDataInfo.entryNum < cboxMaxDataList := hlt
    rcases hw : WritePool s.cboxDataPool recv (StPackCmd.ofBytes recv).frameLen
      with - | ⟨place, pool⟩
    · exact Or.inl ⟨by simp [recvServerData, hf, hlt', hw], hlt, rfl⟩
    · obtain ⟨h0, rfl, hentry, hused⟩ := WritePool_eq hw
      refine Or.inr (Or.inr ⟨by simp, i, _,
        by simp only [recvServerData, hf, hlt', hw, dif_pos]; rfl, rfl, h0, hlt, ?_⟩)
      refine ⟨⟨rfl, rfl, fun j => ?_⟩, by simpa using hentry, hused, fun j => ?_,
        fun j => ?_⟩
      · by_cases hj : j = i
        · simp [hj]
        · simp [hj]
      · by_cases hj : j = i
        · simp [hj, queue, CboxDataInfo.append, nextRecord]
        · simp [hj]
      · by_cases hj : j = i
        · simp [hj]
        · simp [hj]
  · refine Or.inr (Or.inl ⟨fun h => hlt h.1, ?_, ?_⟩)
    · have hlt' : ¬ (s.cboxInfo i).cboxDataInfo.entryNum < cboxMaxDataList := hlt
      simp [recvServerData, hf, hlt']
    · intro i' hi'
      obtain rfl := Option.some.inj hi'
      exact Nat.le_of_not_lt hlt

variable {poolSize : ℕ}

/-- A record of length `n` fits into the pool. -/
def RoomFor (p : PoolSetting poolSize) (n : ℕ) : Prop := 0 < n ∧ p.entrySize + n ≤ poolSize

instance (p : PoolSetting poolSize) (n : ℕ) : Decidable (RoomFor p n) :=
  inferInstanceAs (Decidable (_ ∧ _))

theorem writeDataInfo_of_not {p : PoolSetting poolSize} {n : ℕ} (bs : List Byte) (d : DataInfo)
    (h : ¬ RoomFor p n) : (writeDataInfo p bs n d).1 = .rtError ∧
      (writeDataInfo p bs n d).2.1 = p ∧
      (writeDataInfo p bs n d).2.2 = if n = 0 then d else ⟨0, 0⟩ := by
  have hw : WritePool p bs n = none := by
    rw [WritePool_eq_none_iff]
    unfold RoomFor at h
    omega
  unfold writeDataInfo
  by_cases hn : n = 0
  · simp [hn]
  · simp [hn, hw]

theorem writeDataInfo_of_roomFor {p : PoolSetting poolSize} {n : ℕ} (bs : List Byte)
    (d : DataInfo) (h : RoomFor p n) : ∃ p', writeDataInfo p bs n d = (.rtEok, p', nextRecord p n) ∧
      p'.entrySize = p.entrySize + n ∧
      p'.used = p.used ++ readN bs n := by
  rcases hw : WritePool p bs n with - | ⟨place, p'⟩
  · rw [WritePool_eq_none_iff] at hw
    unfold RoomFor at h
    omega
  · obtain ⟨h0, rfl, hentry, hused⟩ := WritePool_eq hw
    have hn : n ≠ 0 := by omega
    exact ⟨p', by simp [writeDataInfo, hn, hw, nextRecord], hentry, hused⟩

theorem insetCboxHeadData_list (d : DataInfo) (c : CboxDataInfo) :
    (insetCboxHeadData d c).cboxDataList = d ::
      (if c.cboxDataList.length = cboxMaxDataList then c.cboxDataList.dropLast
        else c.cboxDataList) := by
  unfold insetCboxHeadData
  rw [dif_pos (show c.entryNum ≤ cboxMaxDataList from c.entry_le)]
  unfold CboxDataInfo.entryNum
  split_ifs <;> rfl

/-- Without room, the unsent bytes of a failed poll are dropped. -/
theorem requeueSend_of_not {s : AboxInformation} {i n : ℕ} {send : List Byte}
    (h : ¬ RoomFor s.cboxDataPool (n % 2 ^ 16)) : requeueSend s i send n = s := by
  obtain ⟨h1, h2, -⟩ := writeDataInfo_of_not send ⟨0, 0⟩ h
  unfold requeueSend
  split_ifs
  · rfl
  · rcases hw : writeDataInfo s.cboxDataPool send (n % 2 ^ 16) ⟨0, 0⟩ with ⟨r, p, d⟩
    rw [hw] at h1 h2
    simp only at h1 h2
    subst h1 h2
    rfl

/-- With room, they come back as the first record of the queue. -/
theorem requeueSend_of_roomFor {s : AboxInformation} {n : ℕ} (i : ℕ) (send : List Byte)
    (h : RoomFor s.cboxDataPool (n % 2 ^ 16)) :
    Put s (requeueSend s i send n) i (readN send (n % 2 ^ 16))
      (nextRecord s.cboxDataPool (n % 2 ^ 16) ::
        (if (queue (s.cboxInfo i)).length = cboxMaxDataList then
          (queue (s.cboxInfo i)).dropLast else queue (s.cboxInfo i))) := by
  obtain ⟨p', hw, hentry, hused⟩ :=
    writeDataInfo_of_roomFor send ⟨0, 0⟩ h
  have hn : n ≠ 0 := by
    rintro rfl
    exact absurd h.1 (by simp)
  unfold requeueSend
  rw [if_neg hn, hw]
  refine ⟨⟨rfl, rfl, fun j => ?_⟩, by rw [length_readN]; exact hentry, hused,
    fun j => ?_, fun j => ?_⟩
  · rw [AboxInformation.modifyCbox_cboxInfo]
    split_ifs <;> rfl
  · rw [AboxInformation.modifyCbox_cboxInfo]
    by_cases hj : j = i
    · subst hj
      rw [if_pos rfl, if_pos rfl]
      exact insetCboxHeadData_list ..
    · rw [if_neg hj, if_neg hj]
  · rw [AboxInformation.modifyCbox_cboxInfo]
    split_ifs <;> rfl

/-! ## Taking a frame out of a queue -/

/-- The record `d` of slot `i` is cut out of the pool of server frames, `l` being
    the other records of the slot. -/
structure Taken (s s' : AboxInformation) (i : ℕ) (d : DataInfo) (l : List DataInfo) : Prop where
  same : SameSaved s s'
  entrySize : s'.cboxDataPool.entrySize = s.cboxDataPool.entrySize - d.dataLength
  used : s'.cboxDataPool.used = d.seg.remove s.cboxDataPool.used
  list : ∀ j < s.cboxOnlineNum, queue (s'.cboxInfo j) =
    (if j = i then l else queue (s.cboxInfo j)).map (shiftDataAddr d)
  devid : ∀ j, (s'.cboxInfo j).devidCollection = (s.cboxInfo j).devidCollection

theorem getPoolDate_of_nil {s : AboxInformation} {i : ℕ} (h : queue (s.cboxInfo i) = []) :
    getPoolDate s i = (List.replicate buffLen 0, 0, s) := by
  unfold queue at h
  simp [getPoolDate, h]

/-- A poll takes the first record of the queue. -/
theorem getPoolDate_eq {s : AboxInformation} {i : ℕ} {d : DataInfo} {l : List DataInfo}
    (hi : i < s.cboxOnlineNum) (hq : queue (s.cboxInfo i) = d :: l)
    (hd : d.seg.Inside s.cboxDataPool.entrySize) :
    ∃ s', getPoolDate s i = (d.seg.read s.cboxDataPool.used ++
        List.replicate (buffLen - d.dataLength) 0, d.dataLength, s') ∧ Taken s s' i d l := by
  obtain ⟨p', hr, hentry, hused⟩ := ReadPool_eq hd (by decide)
  have hlen : (d.seg.read s.cboxDataPool.used).length = d.dataLength :=
    Seg.length_read (r := d.seg) (by rw [length_used]; exact hd)
  have hq' : (s.cboxInfo i).cboxDataInfo.cboxDataList = d :: l := hq
  refine ⟨_, by simp only [getPoolDate, hq', hr, hlen]; rfl, ?_⟩
  refine ⟨⟨rfl, rfl, fun j => ?_⟩, hentry, hused, fun j hj => ?_, fun j => ?_⟩
  · rw [AboxInformation.modifyCbox_cboxInfo, AboxInformation.mapOnline_cboxInfo]
    split_ifs <;> rfl
  · rw [AboxInformation.modifyCbox_cboxInfo, AboxInformation.mapOnline_cboxInfo, if_pos hj]
    by_cases hji : j = i
    · subst hji
      simp [queue, CboxDataInfo.tail, CboxDataInfo.map, hq']
    · simp [queue, CboxDataInfo.map, hji]
  · rw [AboxInformation.modifyCbox_cboxInfo, AboxInformation.mapOnline_cboxInfo]
    split_ifs <;> rfl

/-- Only the lists of server frames and their pool differ, and behind the Cboxes that
    are online only that of slot `i`. -/
structure ListsChanged (s s' : AboxInformation) (i : ℕ) : Prop where
  online : s'.cboxOnlineNum = s.cboxOnlineNum
  pool : s'.subgDataPool = s.subgDataPool
  info : ∀ j, ∃ l, s'.cboxInfo j = { s.cboxInfo j with cboxDataInfo := l }
  offline : ∀ j, s.cboxOnlineNum ≤ j → j ≠ i → s'.cboxInfo j = s.cboxInfo j

theorem listsChanged_modifyCbox (s : AboxInformation) (i : ℕ) (pool : PoolSetting cboxDataPoolSize)
    (l : CboxInformation → CboxDataInfo) :
    ListsChanged s ({ s with cboxDataPool := pool }.modifyCbox i fun c =>
      { c with cboxDataInfo := l c }) i := by
  refine ⟨rfl, rfl, fun j => ?_, fun j _ hji => ?_⟩
  · rw [AboxInformation.modifyCbox_cboxInfo]
    split_ifs <;> exact ⟨_, rfl⟩
  · rw [AboxInformation.modifyCbox_cboxInfo, if_neg hji]

theorem getPoolDate_listsChanged (s : AboxInformation) (i : ℕ) :
    ListsChanged s (getPoolDate s i).2.2 i := by
  unfold getPoolDate
  split
  · exact ⟨rfl, rfl, fun j => ⟨_, rfl⟩, fun j _ _ => rfl⟩
  · split
    · refine ⟨rfl, rfl, fun j => ?_, fun j hj hji => ?_⟩
      · rw [AboxInformation.modifyCbox_cboxInfo, AboxInformation.mapOnline_cboxInfo]
        split_ifs <;> exact ⟨_, rfl⟩
      · rw [AboxInformation.modifyCbox_cboxInfo, AboxInformation.mapOnline_cboxInfo, if_neg hji,
          if_neg (Nat.not_lt.2 hj)]
    · exact listsChanged_modifyCbox s i s.cboxDataPool fun c => c.cboxDataInfo.dropLast

theorem requeueSend_listsChanged (s : AboxInformation) (i : ℕ) (send : List Byte) (n : ℕ) :
    ListsChanged s (requeueSend s i send n) i := by
  unfold requeueSend
  split_ifs
  · exact ⟨rfl, rfl, fun j => ⟨_, rfl⟩, fun j _ _ => rfl⟩
  · split
    · exact listsChanged_modifyCbox ..
    · exact ⟨rfl, rfl, fun j => ⟨_, rfl⟩, fun j _ _ => rfl⟩

/-- The saved radio data are not touched. -/
theorem ListsChanged.sameSaved {s s' : AboxInformation} {i : ℕ} (h : ListsChanged s s' i) :
    SameSaved s s' := by
  refine ⟨h.online, h.pool, fun j => ?_⟩
  obtain ⟨l, hl⟩ := h.info j
  rw [hl]

/-- A poll does not touch the saved radio data. -/
theorem getPoolDate_sameSaved (s : AboxInformation) (i : ℕ) :
    SameSaved s (getPoolDate s i).2.2 :=
  (getPoolDate_listsChanged s i).sameSaved

/-! ## Saving and restoring radio data -/

/-- The saved record `r` of slot `i` is cut out of the pool of radio data. -/
structure Restored (s s' : AboxInformation) (i : ℕ) (r : DataInfo) : Prop where
  same : SameQueues s s'
  entrySize : s'.subgDataPool.entrySize = s.subgDataPool.entrySize - r.dataLength
  used : s'.subgDataPool.used = r.seg.remove s.subgDataPool.used
  own : (s'.cboxInfo i).subgDataInfo = ⟨0, 0⟩
  list : ∀ j < s.cboxOnlineNum, j ≠ i →
    saved (s'.cboxInfo j) = (saved (s.cboxInfo j)).map (shiftDataAddr r)

/-- A restore takes the saved record out, but returns its address. -/
theorem processExistingData_eq {s : AboxInformation} {i : ℕ} {r : DataInfo}
    (saveBuff : List Byte) (hr : (s.cboxInfo i).subgDataInfo = r)
    (hin : r.seg.Inside s.subgDataPool.entrySize) (hlt : r.dataLength < subgDataPoolSize) :
    ∃ s', processExistingData s i saveBuff = (r.seg.read s.subgDataPool.used ++
        List.replicate (buffLen - r.dataLength) 0, r.dataAddr.toNat, s') ∧ Restored s s' i r := by
  obtain ⟨p', hread, hentry, hused⟩ := ReadPool_eq hin (by decide)
  have hlen : (r.seg.read s.subgDataPool.used).length = r.dataLength :=
    Seg.length_read (r := r.seg) (by rw [length_used]; exact hin)
  have h0 : r.dataLength ≠ 0 := by
    have := hin.1
    simp only [DataInfo.seg] at this
    omega
  have haddr : (r.dataAddr % 2 ^ 32).toNat = r.dataAddr.toNat := by
    have h1 := hin.2.1
    have h2 := hin.2.2
    have h3 := s.subgDataPool.entry_le
    have h4 : subgDataPoolSize < 2 ^ 32 := by decide
    simp only [DataInfo.seg] at h1 h2
    rw [Int.emod_eq_of_lt h1 (by omega)]
  refine ⟨_, by simp only [processExistingData, hr, if_neg h0, if_neg (Nat.not_le.2 hlt), hread,
    hlen, haddr]; rfl, ?_⟩
  refine ⟨⟨rfl, rfl, fun j => ?_⟩, hentry, hused, ?_, fun j hj hji => ?_⟩
  · rw [AboxInformation.modifyCbox_cboxInfo, AboxInformation.mapOnline_cboxInfo]
    split_ifs <;> rfl
  · rw [AboxInformation.modifyCbox_cboxInfo, if_pos rfl]
  · rw [AboxInformation.modifyCbox_cboxInfo, AboxInformation.mapOnline_cboxInfo, if_neg hji,
      if_pos hj]
    unfold saved shiftDataAddr
    by_cases hl : (s.cboxInfo j).subgDataInfo.dataLength = 0
    · simp [hl]
    · simp only [hl, ne_eq, not_false_eq_true, if_true, if_false, List.map_cons, List.map_nil]
      by_cases ha : (s.cboxInfo j).subgDataInfo.dataAddr > r.dataAddr
      · simp [ha, hl]
      · simp [ha, hl]

/-- Only the saved radio records and their pool differ, and behind the Cboxes that are
    online only that of slot `i`. -/
structure SavedChanged (s s' : AboxInformation) (i : ℕ) : Prop where
  online : s'.cboxOnlineNum = s.cboxOnlineNum
  pool : s'.cboxDataPool = s.cboxDataPool
  info : ∀ j, ∃ d, s'.cboxInfo j = { s.cboxInfo j with subgDataInfo := d }
  offline : ∀ j, s.cboxOnlineNum ≤ j → j ≠ i → s'.cboxInfo j = s.cboxInfo j

theorem savedChanged_modifyCbox (s : AboxInformation) (i : ℕ) (pool : PoolSetting subgDataPoolSize)
    (d : DataInfo) :
    SavedChanged s ({ s with subgDataPool := pool }.modifyCbox i fun c =>
      { c with subgDataInfo := d }) i := by
  refine ⟨rfl, rfl, fun j => ?_, fun j _ hji => ?_⟩
  · rw [AboxInformation.modifyCbox_cboxInfo]
    split_ifs <;> exact ⟨_, rfl⟩
  · rw [AboxInformation.modifyCbox_cboxInfo, if_neg hji]

theorem processExistingData_savedChanged (s : AboxInformation) (i : ℕ) (saveBuff : List Byte) :
    SavedChanged s (processExistingData s i saveBuff).2.2 i := by
  simp only [processExistingData]
  split_ifs
  · exact ⟨rfl, rfl, fun j => ⟨_, rfl⟩, fun j _ _ => rfl⟩
  · exact savedChanged_modifyCbox ..
  · split
    · refine ⟨rfl, rfl, fun j => ?_, fun j hj hji => ?_⟩
      · rw [AboxInformation.modifyCbox_cboxInfo, AboxInformation.mapOnline_cboxInfo]
        split_ifs <;> exact ⟨_, rfl⟩
      · rw [AboxInformation.modifyCbox_cboxInfo, AboxInformation.mapOnline_cboxInfo, if_neg hji,
          if_neg (Nat.not_lt.2 hj)]
    · exact ⟨rfl, rfl, fun j => ⟨_, rfl⟩, fun j _ _ => rfl⟩

theorem saveCboxRecv_savedChanged (s : AboxInformation) (i : ℕ) (cboxRecv : List Byte) (n : ℕ) :
    SavedChanged s (saveCboxRecv s i cboxRecv n) i := by
  unfold saveCboxRecv
  split_ifs
  · exact ⟨rfl, rfl, fun j => ⟨_, rfl⟩, fun j _ _ => rfl⟩
  · exact savedChanged_modifyCbox ..

/-- The server frames are not touched. -/
theorem SavedChanged.sameQueues {s s' : AboxInformation} {i : ℕ} (h : SavedChanged s s' i) :
    SameQueues s s' := by
  refine ⟨h.online, h.pool, fun j => ?_⟩
  obtain ⟨d, hd⟩ := h.info j
  rw [hd]
  rfl

/-- A restore does not touch the server frames. -/
theorem processExistingData_sameQueues (s : AboxInformation) (i : ℕ) (saveBuff : List Byte) :
    SameQueues s (processExistingData s i saveBuff).2.2 :=
  (processExistingData_savedChanged s i saveBuff).sameQueues

/-- `bytes` are appended to the pool of radio data as the record of slot `i`. -/
structure Stored (s s' : AboxInformation) (i : ℕ) (bytes : List Byte) : Prop where
  same : SameQueues s s'
  entrySize : s'.subgDataPool.entrySize = s.subgDataPool.entrySize + bytes.length
  used : s'.subgDataPool.used = s.subgDataPool.used ++ bytes
  own : (s'.cboxInfo i).subgDataInfo = nextRecord s.subgDataPool bytes.length
  list : ∀ j, j ≠ i → (s'.cboxInfo j).subgDataInfo = (s.cboxInfo j).subgDataInfo

theorem saveCboxRecv_of_roomFor {s : AboxInformation} {n : ℕ} (i : ℕ) (cboxRecv : List Byte)
    (h : RoomFor s.subgDataPool (n % 2 ^ 16)) :
    Stored s (saveCboxRecv s i cboxRecv n) i (readN cboxRecv (n % 2 ^ 16)) := by
  obtain ⟨p', hw, hentry, hused⟩ :=
    writeDataInfo_of_roomFor cboxRecv (s.cboxInfo i).subgDataInfo h
  have hn : n ≠ 0 := by
    rintro rfl
    exact absurd h.1 (by simp)
  unfold saveCboxRecv
  rw [if_neg hn, hw]
  refine ⟨⟨rfl, rfl, fun j => ?_⟩, by rw [length_readN]; exact hentry, hused, ?_,
    fun j hj => ?_⟩
  · rw [AboxInformation.modifyCbox_cboxInfo]
    split_ifs <;> rfl
  · rw [AboxInformation.modifyCbox_cboxInfo, if_pos rfl, length_readN]
  · rw [AboxInformation.modifyCbox_cboxInfo, if_neg hj]

/-- A save that does not fit loses at most the record the slot had before. -/
theorem saveCboxRecv_of_not {s : AboxInformation} {n : ℕ} (i : ℕ) (cboxRecv : List Byte)
    (h : ¬ RoomFor s.subgDataPool (n % 2 ^ 16)) :
    SameQueues s (saveCboxRecv s i cboxRecv n) ∧
      (saveCboxRecv s i cboxRecv n).subgDataPool = s.subgDataPool ∧
      (saved ((saveCboxRecv s i cboxRecv n).cboxInfo i) = [] ∨
        saved ((saveCboxRecv s i cboxRecv n).cboxInfo i) = saved (s.cboxInfo i)) ∧
      ∀ j, j ≠ i → saved ((saveCboxRecv s i cboxRecv n).cboxInfo j) = saved (s.cboxInfo j) := by
  obtain ⟨-, h2, h3⟩ :=
    writeDataInfo_of_not cboxRecv (s.cboxInfo i).subgDataInfo h
  unfold saveCboxRecv
  split_ifs with hn
  · exact ⟨SameQueues.refl s, rfl, Or.inr rfl, fun j _ => rfl⟩
  · refine ⟨⟨rfl, rfl, fun j => ?_⟩, h2, ?_, fun j hj => ?_⟩
    · rw [AboxInformation.modifyCbox_cboxInfo]
      split_ifs <;> rfl
    · rw [AboxInformation.modifyCbox_cboxInfo, if_pos rfl]
      simp only [saved]
      rw [h3]
      by_cases hm : n % 2 ^ 16 = 0
      · rw [if_pos hm]
        exact Or.inr rfl
      · rw [if_neg hm]
        exact Or.inl (if_pos rfl)
    · rw [AboxInformation.modifyCbox_cboxInfo, if_neg hj]

theorem saveCboxRecv_sameQueues (s : AboxInformation) (i : ℕ) (cboxRecv : List Byte) (n : ℕ) :
    SameQueues s (saveCboxRecv s i cboxRecv n) := by
  by_cases h : RoomFor s.subgDataPool (n % 2 ^ 16)
  · exact (saveCboxRecv_of_roomFor i cboxRecv h).same
  · exact (saveCboxRecv_of_not i cboxRecv h).1

/-! ## Adding and removing a Cbox -/

/-- A Cbox that registers comes without records. -/
theorem addCbox_cases (s : AboxInformation) (p_dev_id : Fin devidTypeNum → BitVec 32) :
    (addCbox s p_dev_id).2 = s ∨
    ((addCbox s p_dev_id).2.cboxOnlineNum = s.cboxOnlineNum + 1 ∧
      (addCbox s p_dev_id).2.cboxDataPool = s.cboxDataPool ∧
      (addCbox s p_dev_id).2.subgDataPool = s.subgDataPool ∧
      (∀ j < s.cboxOnlineNum, (addCbox s p_dev_id).2.cboxInfo j = s.cboxInfo j) ∧
      queue ((addCbox s p_dev_id).2.cboxInfo s.cboxOnlineNum) = [] ∧
      saved ((addCbox s p_dev_id).2.cboxInfo s.cboxOnlineNum) = [] ∧
      ((addCbox s p_dev_id).2.cboxInfo s.cboxOnlineNum).devidCollection = p_dev_id) := by
  simp only [addCbox]
  split_ifs
  · exact Or.inl rfl
  · refine Or.inr ⟨rfl, rfl, rfl, fun j hj => ?_, ?_, ?_, ?_⟩
    · exact Function.update_of_ne (Nat.ne_of_lt hj) ..
    · simp [queue, initCboxInfo]
    · simp [saved, initCboxInfo]
    · simp [initCboxInfo]

theorem records_addCbox {f : CboxInformation → List DataInfo} {s s' : AboxInformation}
    (hn : s'.cboxOnlineNum = s.cboxOnlineNum + 1)
    (h : ∀ j < s.cboxOnlineNum, s'.cboxInfo j = s.cboxInfo j)
    (hnew : f (s'.cboxInfo s.cboxOnlineNum) = []) : records f s' = records f s := by
  unfold records
  rw [hn, List.range_succ, List.flatMap_append, List.flatMap_singleton, hnew, List.append_nil]
  exact List.flatMap_congr fun j hj => by rw [h j (List.mem_range.1 hj)]

@[simp] theorem moveCboxesDown_cboxOnlineNum (s : AboxInformation) (i : ℕ) :
    (moveCboxesDown s i).cboxOnlineNum = s.cboxOnlineNum - 1 := rfl

@[simp] theorem moveCboxesDown_cboxDataPool (s : AboxInformation) (i : ℕ) :
    (moveCboxesDown s i).cboxDataPool = s.cboxDataPool := rfl

@[simp] theorem moveCboxesDown_subgDataPool (s : AboxInformation) (i : ℕ) :
    (moveCboxesDown s i).subgDataPool = s.subgDataPool := rfl

theorem moveCboxesDown_cboxInfo {s : AboxInformation} {i j : ℕ} (hj : j < s.cboxOnlineNum - 1) :
    (moveCboxesDown s i).cboxInfo j = s.cboxInfo (skip i j) := by
  simp only [moveCboxesDown, skip]
  split_ifs <;> rfl

theorem records_moveCboxesDown (f : CboxInformation → List DataInfo) (s : AboxInformation)
    (i : ℕ) : records f (moveCboxesDown s i) = others f s i := by
  unfold records others
  exact List.flatMap_congr fun j hj => by rw [moveCboxesDown_cboxInfo (List.mem_range.1 hj)]

/-- A removal empties the records of the Cbox one after the other, then its
    slot is closed. -/
theorem removeCbox_eq {fuel : ℕ} {s s' : AboxInformation} {i : ℕ} (hi : i < s.cboxOnlineNum)
    (h : removeCbox fuel s i = some s') : ∃ t u, dropSaved fuel s i = some t ∧
      dropQueue fuel t i = some u ∧ s' = moveCboxesDown u i := by
  unfold removeCbox at h
  rw [if_neg (Nat.not_le.2 hi)] at h
  obtain ⟨t, ht, h⟩ := Option.bind_eq_some_iff.1 h
  obtain ⟨u, hu, h⟩ := Option.bind_eq_some_iff.1 h
  exact ⟨t, u, ht, hu, (Option.some.inj h).symm⟩

/-- An index that is not online is ignored. -/
theorem removeCbox_of_offline {fuel : ℕ} {s s' : AboxInformation} {i : ℕ}
    (hi : ¬ i < s.cboxOnlineNum) (h : removeCbox fuel s i = some s') : s' = s := by
  unfold removeCbox at h
  rw [if_pos (Nat.le_of_not_lt hi)] at h
  exact (Option.some.inj h).symm

theorem dropSaved_sameQueues {fuel : ℕ} {s t : AboxInformation} {i : ℕ}
    (h : dropSaved fuel s i = some t) : SameQueues s t :=
  whileLoop_rel SameQueues.refl SameQueues.trans (fun _ => processExistingData_sameQueues ..) h

theorem dropQueue_sameSaved {fuel : ℕ} {s t : AboxInformation} {i : ℕ}
    (h : dropQueue fuel s i = some t) : SameSaved s t ∧ queue (t.cboxInfo i) = [] := by
  have hinv := whileLoop_inv (SameSaved s) ?_ h (SameSaved.refl s)
  · refine ⟨hinv.1, List.eq_nil_of_length_eq_zero ?_⟩
    simpa [queue, CboxDataInfo.entryNum] using hinv.2
  · intro u v hu _ hv
    obtain rfl := Option.some.inj hv
    exact hu.trans (getPoolDate_sameSaved ..)

end Abox.Radio
