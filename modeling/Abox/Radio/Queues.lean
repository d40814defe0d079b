import Abox.Radio.Ledger
import Abox.Radio.Poll
import Abox.Radio.Saved

/-!
# What waits for a Cbox

`queued s k` are the bytes of the server frames waiting for the Cbox in slot
`k`, read from the pool in the order of its list.

* `QueuesPacked`: the records of the online Cboxes never overlap, whatever is
  lost.
* `Put.queued_other`, `getPoolDate_queued`, `removeCbox_queued`: what is done
  for one Cbox leaves the bytes of the others unchanged.
-/

namespace Abox.Radio

open Segments Loops

/-- The records of the online Cboxes are disjoint parts of the pool. -/
def QueuesPacked (s : AboxInformation) : Prop :=
  Packed s.cboxDataPool.entrySize ((records queue s).map DataInfo.seg)

/-- The bytes waiting for the Cbox in slot `k`. -/
def queued (s : AboxInformation) (k : ℕ) : List Byte :=
  readAll s.cboxDataPool.used ((queue (s.cboxInfo k)).map DataInfo.seg)

theorem queuesPacked_init : QueuesPacked initAboxInformation := Packed.nil _

theorem SameQueues.queuesPacked {s s' : AboxInformation} (h : SameQueues s s')
    (hp : QueuesPacked s) : QueuesPacked s' := by
  unfold QueuesPacked
  rw [h.records, h.pool]
  exact hp

theorem SameQueues.queued {s s' : AboxInformation} (h : SameQueues s s') (k : ℕ) :
    queued s' k = queued s k := by
  unfold Radio.queued
  rw [h.list, h.pool]

theorem QueuesPacked.inside {s : AboxInformation} (h : QueuesPacked s) {i : ℕ}
    (hi : i < s.cboxOnlineNum) :
    ∀ r ∈ (queue (s.cboxInfo i)).map DataInfo.seg, r.Inside s.cboxDataPool.used.length := by
  intro r hr
  obtain ⟨d, hd, rfl⟩ := List.mem_map.1 hr
  rw [length_used]
  exact packed_inside h hi hd

/-! ## Putting a frame into a queue -/

section Put

variable {s s' : AboxInformation} {i : ℕ} {bytes : List Byte} {l l' : List DataInfo}

theorem Put.queued_other (h : Put s s' i bytes l) (hp : QueuesPacked s) {k : ℕ}
    (hk : k < s.cboxOnlineNum) (hki : k ≠ i) : queued s' k = queued s k := by
  unfold queued
  rw [h.list, if_neg hki, h.used]
  exact readAll_append (hp.inside hk)

/-- A frame added as the last record. -/
theorem Put.queued_last (h : Put s s' i bytes
      (queue (s.cboxInfo i) ++ [nextRecord s.cboxDataPool bytes.length]))
    (hp : QueuesPacked s) (hi : i < s.cboxOnlineNum) : queued s' i = queued s i ++ bytes := by
  unfold queued
  rw [h.list, if_pos rfl, h.used, List.map_append, List.map_singleton, readAll_concat,
    readAll_append (hp.inside hi)]
  congr 1
  have := Seg.read_last s.cboxDataPool.used bytes
  rwa [length_used] at this

/-- Bytes added as the first record, before what is kept of the queue. -/
theorem Put.queued_first (h : Put s s' i bytes (nextRecord s.cboxDataPool bytes.length :: l'))
    (hl : l'.Sublist (queue (s.cboxInfo i))) (hp : QueuesPacked s) (hi : i < s.cboxOnlineNum) :
    queued s' i = bytes ++ readAll s.cboxDataPool.used (l'.map DataInfo.seg) := by
  unfold queued
  rw [h.list, if_pos rfl, h.used, List.map_cons, readAll_cons,
    readAll_append fun r hr => hp.inside hi r ((hl.map _).subset hr)]
  congr 1
  have := Seg.read_last s.cboxDataPool.used bytes
  rwa [length_used] at this

theorem Put.queuesPacked (h : Put s s' i bytes l) (h0 : 0 < bytes.length)
    (hl : l.Perm (nextRecord s.cboxDataPool bytes.length :: l'))
    (hl' : l'.Sublist (queue (s.cboxInfo i))) (hp : QueuesPacked s) : QueuesPacked s' := by
  unfold QueuesPacked
  rw [h.entrySize]
  by_cases hi : i < s.cboxOnlineNum
  · have hkeep := (packed_split hp hi).sublist
      ((hl'.append_right (Radio.others queue s i)).map DataInfo.seg)
    refine (hkeep.append h0).perm (List.Perm.symm ?_)
    exact (h.segs_perm hi).trans ((hl.append_right _).map _)
  · rw [records_congr h.same.online fun j hj => by rw [h.list j, if_neg (by omega)]]
    exact hp.mono (Nat.le_add_right _ _)

end Put

/-! ## Taking a frame out of a queue -/

section Taken

variable {s s' : AboxInformation} {i : ℕ} {d : DataInfo} {l : List DataInfo}

theorem Taken.queuesPacked (h : Taken s s' i d l) (hi : i < s.cboxOnlineNum)
    (hq : queue (s.cboxInfo i) = d :: l) (hp : QueuesPacked s) : QueuesPacked s' := by
  have hcut := packed_split hp hi
  rw [hq, List.cons_append, List.map_cons] at hcut
  unfold QueuesPacked
  rw [h.entrySize]
  exact hcut.closeUp.perm (h.segs_perm hi).symm

/-- The records of slot `k` other than the one that is taken lie apart from it. -/
theorem QueuesPacked.apart (hp : QueuesPacked s) (hi : i < s.cboxOnlineNum)
    (hq : queue (s.cboxInfo i) = d :: l) {k : ℕ} (hk : k < s.cboxOnlineNum) :
    ∀ e ∈ (if k = i then l else queue (s.cboxInfo k)),
      e.seg.Inside s.cboxDataPool.entrySize ∧ d.seg.Apart e.seg := by
  have hd : d ∈ queue (s.cboxInfo i) := by simp [hq]
  intro e he
  by_cases hki : k = i
  · subst hki
    rw [if_pos rfl] at he
    refine ⟨packed_inside hp hk (by rw [hq]; exact List.mem_cons_of_mem _ he), ?_⟩
    have hpair := (packed_split hp hk).2
    rw [hq, List.cons_append, List.map_cons] at hpair
    exact List.rel_of_pairwise_cons hpair
      (List.mem_map_of_mem (List.mem_append_left _ he))
  · rw [if_neg hki] at he
    exact ⟨packed_inside hp hk he, packed_apart hp hi hk hki hd he⟩

/-- Their bytes, before and after. -/
theorem Taken.readAll_eq (h : Taken s s' i d l) (hi : i < s.cboxOnlineNum)
    (hq : queue (s.cboxInfo i) = d :: l) (hp : QueuesPacked s) {k : ℕ} (hk : k < s.cboxOnlineNum) :
    queued s' k = readAll s.cboxDataPool.used
      ((if k = i then l else queue (s.cboxInfo k)).map DataInfo.seg) := by
  have hd : d ∈ queue (s.cboxInfo i) := by simp [hq]
  unfold queued
  rw [h.list k hk, map_seg_shift, h.used]
  refine readAll_remove (by rw [length_used]; exact packed_inside hp hi hd) fun r hr => ?_
  obtain ⟨e, he, rfl⟩ := List.mem_map.1 hr
  rw [length_used]
  exact hp.apart hi hq hk e he

end Taken

/-- A poll takes the first bytes that wait for its Cbox, and leaves those of the
    others. -/
theorem getPoolDate_queued {s : AboxInformation} {i : ℕ} (hi : i < s.cboxOnlineNum)
    (hp : QueuesPacked s) : QueuesPacked (getPoolDate s i).2.2 ∧
      readN (getPoolDate s i).1 (getPoolDate s i).2.1 ++ queued (getPoolDate s i).2.2 i =
        queued s i ∧
      ∀ k < s.cboxOnlineNum, k ≠ i → queued (getPoolDate s i).2.2 k = queued s k := by
  rcases hq : queue (s.cboxInfo i) with - | ⟨d, l⟩
  · rw [getPoolDate_of_nil hq]
    exact ⟨hp, rfl, fun k _ _ => rfl⟩
  · have hin := packed_inside hp hi (d := d) (by simp [hq])
    obtain ⟨s', heq, htaken⟩ := getPoolDate_eq hi hq hin
    have hlen : (d.seg.read s.cboxDataPool.used).length = d.dataLength :=
      Seg.length_read (r := d.seg) (by rw [length_used]; exact hin)
    rw [heq]
    refine ⟨htaken.queuesPacked hi hq hp, ?_, fun k hk hki => ?_⟩
    · show readN (d.seg.read s.cboxDataPool.used ++ _) d.dataLength ++ queued s' i = queued s i
      rw [htaken.readAll_eq hi hq hp hi, if_pos rfl, readN_of_le (by simp [hlen]),
        List.take_left' hlen]
      unfold queued
      rw [hq, List.map_cons, readAll_cons]
    · show queued s' k = queued s k
      rw [htaken.readAll_eq hi hq hp hk, if_neg hki]
      rfl

/-! ## Adding and removing a Cbox -/

theorem addCbox_queued {s : AboxInformation} (p_dev_id : Fin devidTypeNum → BitVec 32)
    (hp : QueuesPacked s) : QueuesPacked (addCbox s p_dev_id).2 ∧
      ∀ k < s.cboxOnlineNum, queued (addCbox s p_dev_id).2 k = queued s k := by
  rcases addCbox_cases s p_dev_id with heq | ⟨hn, hpool, -, hold, hnew, -, -⟩
  · rw [heq]
    exact ⟨hp, fun k _ => rfl⟩
  · constructor
    · unfold QueuesPacked
      rw [hpool, records_addCbox hn hold hnew]
      exact hp
    · intro k hk
      unfold queued
      rw [hold k hk, hpool]

theorem dropQueue_queued {fuel : ℕ} {s t : AboxInformation} {i : ℕ} (hi : i < s.cboxOnlineNum)
    (h : dropQueue fuel s i = some t) (hp : QueuesPacked s) : QueuesPacked t ∧
      ∀ k < s.cboxOnlineNum, k ≠ i → queued t k = queued s k := by
  have hinv := whileLoop_inv (fun t => t.cboxOnlineNum = s.cboxOnlineNum ∧ QueuesPacked t ∧
    ∀ k < s.cboxOnlineNum, k ≠ i → queued t k = queued s k) ?_ h ⟨rfl, hp, fun k _ _ => rfl⟩
  · exact hinv.1.2
  · rintro u v ⟨hn, hpu, hsu⟩ - hv
    obtain rfl := Option.some.inj hv
    obtain ⟨hpv, -, hsv⟩ := getPoolDate_queued (show i < u.cboxOnlineNum by omega) hpu
    refine ⟨(getPoolDate_sameSaved u i).online.trans hn, hpv, fun k hk hki => ?_⟩
    exact (hsv k (by omega) hki).trans (hsu k hk hki)

theorem moveCboxesDown_queuesPacked {s : AboxInformation} {i : ℕ} (hi : i < s.cboxOnlineNum)
    (hp : QueuesPacked s) : QueuesPacked (moveCboxesDown s i) := by
  unfold QueuesPacked
  rw [records_moveCboxesDown]
  exact (packed_split hp hi).sublist (((List.sublist_append_right ..)).map _)

theorem removeCbox_queued {fuel : ℕ} {s s' : AboxInformation} {i : ℕ}
    (h : removeCbox fuel s i = some s') (hp : QueuesPacked s) : QueuesPacked s' ∧
      ∀ k < s.cboxOnlineNum, k ≠ i → slotAfterRemove i k < s'.cboxOnlineNum ∧
        queued s' (slotAfterRemove i k) = queued s k := by
  by_cases hi : i < s.cboxOnlineNum
  · obtain ⟨t, u, ht, hu, rfl⟩ := removeCbox_eq hi h
    have hst := dropSaved_sameQueues ht
    have hti : i < t.cboxOnlineNum := by rw [hst.online]; exact hi
    obtain ⟨hpu, hku⟩ := dropQueue_queued hti hu (hst.queuesPacked hp)
    have hun : u.cboxOnlineNum = s.cboxOnlineNum :=
      (dropQueue_sameSaved hu).1.online.trans hst.online
    refine ⟨moveCboxesDown_queuesPacked (by omega) hpu, fun k hk hki => ?_⟩
    have hlt : slotAfterRemove i k < u.cboxOnlineNum - 1 := by
      unfold slotAfterRemove
      split_ifs <;> omega
    have hmove := moveCboxesDown_cboxInfo (s := u) (i := i) hlt
    rw [skip_slotAfterRemove hki] at hmove
    refine ⟨hlt, ?_⟩
    rw [← hst.queued k, ← hku k (by rw [hst.online]; exact hk) hki]
    unfold queued
    rw [hmove, moveCboxesDown_cboxDataPool]
  · obtain rfl := removeCbox_of_offline hi h
    refine ⟨hp, fun k hk _ => ?_⟩
    rw [slotAfterRemove, if_neg (by omega)]
    exact ⟨hk, rfl⟩

/-- Wiping a slot makes no records overlap. -/
theorem packed_wipe {f : CboxInformation → List DataInfo} (hf : f CboxInformation.zero = [])
    {s : AboxInformation} {n i : ℕ} (h : Packed n ((records f s).map DataInfo.seg)) :
    Packed n ((records f (s.modifyCbox i fun _ => CboxInformation.zero)).map DataInfo.seg) := by
  set u := s.modifyCbox i fun _ => CboxInformation.zero with hu
  have hlist : ∀ j, f (u.cboxInfo j) = if j = i then [] else f (s.cboxInfo j) := by
    intro j
    rw [hu, AboxInformation.modifyCbox_cboxInfo]
    split_ifs
    · exact hf
    · rfl
  by_cases hi : i < s.cboxOnlineNum
  · have hoth : others f u i = others f s i :=
      others_congr rfl hi fun j _ hji => by rw [hlist, if_neg hji]
    have hperm := (records_perm (f := f) (show i < u.cboxOnlineNum from hi)).map DataInfo.seg
    rw [hlist, if_pos rfl, List.nil_append, hoth] at hperm
    exact ((packed_split h hi).sublist ((List.sublist_append_right ..).map _)).perm hperm.symm
  · rw [records_congr (show u.cboxOnlineNum = s.cboxOnlineNum from rfl) fun j hj => by
      rw [hlist, if_neg (by omega)]]
    exact h

/-- `cleanCbox` may wipe a list, but makes no records overlap. -/
theorem cleanFrom_queuesPacked {fuel : ℕ} {s s' : AboxInformation} {i : ℕ} {c : Option ℕ}
    (h : cleanFrom fuel s i = some (s', c)) (hp : QueuesPacked s) : QueuesPacked s' := by
  obtain ⟨-, -, t, ht, rfl⟩ | ⟨-, -, rfl⟩ := cleanFrom_cases h
  · exact packed_wipe (f := queue) rfl (removeCbox_queued ht hp).1
  · exact Packed.nil _

end Abox.Radio
