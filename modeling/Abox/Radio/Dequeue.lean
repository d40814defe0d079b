import Abox.Radio.Ledger
import Abox.Radio.Queues

/-!
# Taking a frame out of the pool

`getPoolDate` closes the gap in the pool and then moves the descriptors behind
it in a loop over all Cboxes and all their entries. The descriptor that it
compares with and the length that it subtracts are read anew for each entry,
from the list of the Cbox, which is one of those that are rewritten.

* `getPoolDateLoops_eq`: the loops shift exactly the entries behind the record
  that was read, as `getPoolDate` of `Abox.Radio.Cbox` has it.
* `getPoolDate_dequeues`: while the records tile the pool, the first one of a
  Cbox is returned and removed, and all others keep their bytes and their order.
-/

namespace Abox.Radio

open Segments

/-! ## The loops -/

/-- `f` applied to the entry `j`. -/
def CboxDataInfo.modifyEntry (f : DataInfo → DataInfo) (j : ℕ) (c : CboxDataInfo) : CboxDataInfo :=
  ⟨c.cboxDataList.modify j f, by simpa using c.entry_le⟩

/-- The body of the loops (lines 767–772): the entry `j` of slot `index` against
    the first entry of slot `i`, as both are now. -/
def shiftEntry (i index : ℕ) (s : AboxInformation) (j : ℕ) : AboxInformation :=
  match queue (s.cboxInfo i) with
  | [] => s
  | d :: _ => s.modifyCbox index fun c =>
    { c with cboxDataInfo := c.cboxDataInfo.modifyEntry (shiftDataAddr d) j }

/-- The inner loop (lines 765–774). -/
def shiftSlot (i : ℕ) (s : AboxInformation) (index : ℕ) : AboxInformation :=
  (List.range (s.cboxInfo index).cboxDataInfo.entryNum).foldl (shiftEntry i index) s

/-- Both loops (lines 763–775). -/
def shiftSlots (s : AboxInformation) (i : ℕ) : AboxInformation :=
  (List.range s.cboxOnlineNum).foldl (shiftSlot i) s

/-- `getPoolDate` with its loops. -/
def getPoolDateLoops (s : AboxInformation) (i : ℕ) : List Byte × ℕ × AboxInformation :=
  match (s.cboxInfo i).cboxDataInfo.cboxDataList with
  | [] => (List.replicate buffLen 0, 0, s)
  | d :: _ =>
    match ReadPool s.cboxDataPool d.dataAddr d.dataLength with
    | some (bytes, pool) =>
      (bytes ++ List.replicate (buffLen - bytes.length) 0, d.dataLength,
        (shiftSlots { s with cboxDataPool := pool } i).modifyCbox i fun c =>
          { c with cboxDataInfo := c.cboxDataInfo.tail })
    | none =>
      (List.replicate buffLen 0, 0,
        s.modifyCbox i fun c => { c with cboxDataInfo := c.cboxDataInfo.dropLast })

/-! ## What the loops do -/

theorem CboxDataInfo.eq_of_list {c c' : CboxDataInfo} (h : c.cboxDataList = c'.cboxDataList) :
    c = c' := by
  cases c
  cases c'
  congr

/-- The first `k` entries are changed one after the other. -/
theorem getElem?_foldl_modify {α : Type} (f : α → α) (l : List α) (k n : ℕ) :
    ((List.range k).foldl (fun l j => l.modify j f) l)[n]? =
      if n < k then l[n]?.map f else l[n]? := by
  induction k with
  | zero => simp
  | succ k ih =>
    rw [List.range_succ, List.foldl_append, List.foldl_cons, List.foldl_nil,
      List.getElem?_modify, ih]
    by_cases h : k = n
    · subst h
      simp
    · have hiff : n < k + 1 ↔ n < k := by omega
      simp [h, hiff]

theorem foldl_modify {α : Type} (f : α → α) (l : List α) :
    (List.range l.length).foldl (fun l j => l.modify j f) l = l.map f := by
  apply List.ext_getElem?
  intro n
  rw [getElem?_foldl_modify, List.getElem?_map]
  split_ifs with hn
  · rfl
  · rw [List.getElem?_eq_none (by omega)]
    rfl

theorem foldl_modifyEntry (f : DataInfo → DataInfo) (c : CboxDataInfo) :
    (List.range c.entryNum).foldl (fun c j => c.modifyEntry f j) c = c.map f := by
  apply CboxDataInfo.eq_of_list
  rw [show (c.map f).cboxDataList = c.cboxDataList.map f from rfl, ← foldl_modify]
  exact (List.foldl_hom CboxDataInfo.cboxDataList fun _ _ => rfl).symm

theorem modifyCbox_modifyCbox (s : AboxInformation) (i : ℕ)
    (f g : CboxInformation → CboxInformation) :
    (s.modifyCbox i f).modifyCbox i g = s.modifyCbox i fun c => g (f c) := by
  unfold AboxInformation.modifyCbox
  simp

theorem modifyCbox_self (s : AboxInformation) (i : ℕ) : s.modifyCbox i (fun c => c) = s := by
  unfold AboxInformation.modifyCbox
  simp

/-- The record that was read is not behind itself, so its entry stays. -/
theorem shiftDataAddr_self (d : DataInfo) : shiftDataAddr d d = d := by
  simp [shiftDataAddr]

/-- The entry that all others are compared with. -/
def Head (i : ℕ) (d : DataInfo) (s : AboxInformation) : Prop :=
  (queue (s.cboxInfo i)).head? = some d

theorem Head.shiftEntry_eq {i : ℕ} {d : DataInfo} {s : AboxInformation} (h : Head i d s)
    (index j : ℕ) : shiftEntry i index s j = s.modifyCbox index fun c =>
      { c with cboxDataInfo := c.cboxDataInfo.modifyEntry (shiftDataAddr d) j } := by
  obtain ⟨l, hl⟩ := List.head?_eq_some_iff.1 h
  unfold shiftEntry
  rw [hl]

/-- No pass changes it. -/
theorem Head.shiftEntry {i : ℕ} {d : DataInfo} {s : AboxInformation} (h : Head i d s)
    (index j : ℕ) : Head i d (shiftEntry i index s j) := by
  obtain ⟨l, hl⟩ := List.head?_eq_some_iff.1 h
  rw [h.shiftEntry_eq]
  unfold Head
  rw [AboxInformation.modifyCbox_cboxInfo]
  split_ifs
  · show ((queue (s.cboxInfo i)).modify j (shiftDataAddr d)).head? = some d
    rw [hl]
    cases j with
    | zero => simp [shiftDataAddr_self]
    | succ j => simp
  · exact h

theorem Head.foldl_shiftEntry {i : ℕ} {d : DataInfo} {s : AboxInformation} (h : Head i d s)
    (index : ℕ) (l : List ℕ) : Head i d (l.foldl (Radio.shiftEntry i index) s) ∧
      l.foldl (Radio.shiftEntry i index) s = s.modifyCbox index fun c =>
        { c with cboxDataInfo :=
            l.foldl (fun c j => c.modifyEntry (shiftDataAddr d) j) c.cboxDataInfo } := by
  induction l generalizing s with
  | nil => exact ⟨h, (modifyCbox_self s index).symm⟩
  | cons j l ih =>
    obtain ⟨hhead, heq⟩ := ih (h.shiftEntry index j)
    refine ⟨hhead, ?_⟩
    rw [List.foldl_cons, heq, h.shiftEntry_eq, modifyCbox_modifyCbox]
    rfl

/-- The inner loop shifts all entries of its slot. -/
theorem Head.shiftSlot {i : ℕ} {d : DataInfo} {s : AboxInformation} (h : Head i d s)
    (index : ℕ) : Head i d (shiftSlot i s index) ∧
      shiftSlot i s index = s.modifyCbox index fun c =>
        { c with cboxDataInfo := c.cboxDataInfo.map (shiftDataAddr d) } := by
  obtain ⟨hhead, heq⟩ := h.foldl_shiftEntry index
    (List.range (s.cboxInfo index).cboxDataInfo.entryNum)
  refine ⟨hhead, ?_⟩
  rw [Radio.shiftSlot, heq]
  unfold AboxInformation.modifyCbox
  dsimp only
  rw [foldl_modifyEntry]

/-- The outer loop, after `n` slots. -/
theorem Head.foldl_shiftSlot {i : ℕ} {d : DataInfo} {s : AboxInformation} (h : Head i d s)
    (n : ℕ) : Head i d ((List.range n).foldl (Radio.shiftSlot i) s) ∧
      (List.range n).foldl (Radio.shiftSlot i) s =
        { s with cboxInfo := fun j =>
            if j < n then
              { s.cboxInfo j with
                cboxDataInfo := (s.cboxInfo j).cboxDataInfo.map (shiftDataAddr d) }
            else s.cboxInfo j } := by
  induction n with
  | zero =>
    refine ⟨h, ?_⟩
    simp
  | succ n ih =>
    obtain ⟨hhead, heq⟩ := ih
    obtain ⟨hhead', heq'⟩ := hhead.shiftSlot n
    rw [List.range_succ, List.foldl_append, List.foldl_cons, List.foldl_nil]
    refine ⟨hhead', ?_⟩
    rw [heq', heq]
    unfold AboxInformation.modifyCbox
    congr 1
    funext j
    by_cases hj : j = n
    · subst hj
      simp
    · have hiff : j < n + 1 ↔ j < n := by omega
      simp [hj, hiff]

/-- The two loops move the entries behind the record that was read, and no other. -/
theorem getPoolDateLoops_eq (s : AboxInformation) (i : ℕ) :
    getPoolDateLoops s i = getPoolDate s i := by
  unfold getPoolDateLoops getPoolDate
  cases hq : (s.cboxInfo i).cboxDataInfo.cboxDataList with
  | nil => rfl
  | cons d l =>
    dsimp only
    cases hr : ReadPool s.cboxDataPool d.dataAddr d.dataLength with
    | none => rfl
    | some p =>
      have hhead : Head i d { s with cboxDataPool := p.2 } := by
        show (s.cboxInfo i).cboxDataInfo.cboxDataList.head? = some d
        rw [hq]
        rfl
      have hslots := (hhead.foldl_shiftSlot s.cboxOnlineNum).2
      dsimp only
      rw [show shiftSlots { s with cboxDataPool := p.2 } i = _ from hslots]
      rfl

/-! ## The records -/

/-- What the records of a list stand for, in its order. -/
def contents (s : AboxInformation) (l : List DataInfo) : List (List Byte) :=
  l.map fun e => e.seg.read s.cboxDataPool.used

/-- From `s` to `s'` the first record `d` of slot `i` was copied to `saveBuf` and
    `n` returned; it is gone, the other records of all Cboxes stand for the same
    bytes in the same order, and they tile the pool. -/
structure Dequeued (s s' : AboxInformation) (i : ℕ) (d : DataInfo) (saveBuf : List Byte)
    (n : ℕ) : Prop where
  size : saveBuf.length = buffLen
  length : n = d.dataLength
  bytes : saveBuf.take n = d.seg.read s.cboxDataPool.used
  read : (saveBuf.take n).length = n
  online : s'.cboxOnlineNum = s.cboxOnlineNum
  own : contents s' (queue (s'.cboxInfo i)) = contents s (queue (s.cboxInfo i)).tail
  other : ∀ k < s.cboxOnlineNum, k ≠ i →
    contents s' (queue (s'.cboxInfo k)) = contents s (queue (s.cboxInfo k))
  ledger : Ledger s'

/-- The records of slot `k` behind the one that is taken, before and after. -/
theorem Taken.contents_eq {s s' : AboxInformation} {i : ℕ} {d : DataInfo} {l : List DataInfo}
    (h : Taken s s' i d l) (hi : i < s.cboxOnlineNum) (hq : queue (s.cboxInfo i) = d :: l)
    (hp : QueuesPacked s) {k : ℕ} (hk : k < s.cboxOnlineNum) :
    contents s' (queue (s'.cboxInfo k)) =
      contents s (if k = i then l else queue (s.cboxInfo k)) := by
  have hd : d ∈ queue (s.cboxInfo i) := by simp [hq]
  have hapart := hp.apart hi hq hk
  unfold contents
  rw [h.list k hk, List.map_map, h.used]
  apply List.map_congr_left
  intro e he
  obtain ⟨hin, hap⟩ := hapart e he
  show (shiftDataAddr d e).seg.read _ = _
  rw [seg_shiftDataAddr]
  exact Seg.read_remove (by rw [length_used]; exact packed_inside hp hi hd)
    (by rw [length_used]; exact hin) hap

/-- While the records tile the pool and none is longer than a buffer, a poll
    takes the first one of its Cbox and leaves all others. -/
theorem getPoolDate_dequeues {s : AboxInformation} {i : ℕ} (hled : Ledger s)
    (hlen : ∀ d ∈ records queue s, d.dataLength ≤ buffLen) (hi : i < s.cboxOnlineNum)
    (hne : 0 < (s.cboxInfo i).cboxDataInfo.entryNum) :
    ∃ d, (queue (s.cboxInfo i)).head? = some d ∧
      Dequeued s (getPoolDateLoops s i).2.2 i d (getPoolDateLoops s i).1
        (getPoolDateLoops s i).2.1 := by
  obtain ⟨d, l, hq⟩ := List.exists_cons_of_length_pos hne
  have hq' : queue (s.cboxInfo i) = d :: l := hq
  have hd : d ∈ queue (s.cboxInfo i) := by simp [hq']
  have hp : QueuesPacked s := hled.1
  have hin := hled.inside hi hd
  obtain ⟨s', heq, htaken⟩ := getPoolDate_eq hi hq' hin
  have hread : (d.seg.read s.cboxDataPool.used).length = d.dataLength :=
    Seg.length_read (r := d.seg) (by rw [length_used]; exact hin)
  have hfits := hlen d (mem_records hi hd)
  refine ⟨d, by rw [hq']; rfl, ?_⟩
  rw [getPoolDateLoops_eq, heq]
  refine ⟨?_, rfl, ?_, ?_, htaken.same.online, ?_, fun k hk hki => ?_, ?_⟩
  · rw [List.length_append, hread, List.length_replicate]
    omega
  · exact List.take_left' hread
  · show ((d.seg.read s.cboxDataPool.used ++ _).take d.dataLength).length = d.dataLength
    rw [List.take_left' hread, hread]
  · rw [htaken.contents_eq hi hq' hp hi, if_pos rfl, hq', List.tail_cons]
  · rw [htaken.contents_eq hi hq' hp hk, if_neg hki]
  · exact htaken.ledger hi hq' hled

/-- Three frames for two Cboxes, in the order in which they arrived. -/
def threeRecords : AboxInformation :=
  [frameTo1, frameTo2, frameTo1].foldl (fun s recv => (recvServerData s recv).2)
    (addCbox (addCbox initAboxInformation fun _ => 1).2 fun _ => 2).2

/-- The first one is taken; the two others move. -/
theorem getPoolDate_three_records : ∃ d, (queue (threeRecords.cboxInfo 0)).head? = some d ∧
    Dequeued threeRecords (getPoolDateLoops threeRecords 0).2.2 0 d
      (getPoolDateLoops threeRecords 0).1 (getPoolDateLoops threeRecords 0).2.1 := by
  have hsize : threeRecords.cboxDataPool.entrySize = 32 := by decide +kernel
  have hrec : records queue threeRecords = [⟨0, 10⟩, ⟨22, 10⟩, ⟨10, 12⟩] := by decide +kernel
  apply getPoolDate_dequeues
  · unfold Ledger
    rw [hsize, hrec]
    decide
  · rw [hrec]
    decide
  · decide +kernel
  · decide +kernel

end Abox.Radio
