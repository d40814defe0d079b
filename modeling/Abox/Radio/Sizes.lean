import Abox.Radio.Fifo

/-!
# The sizes of the server frames

`traverseCbox` and `removeCbox` give `getPoolDate` a buffer of `BUFF_LEN` bytes,
and it copies a whole record. No step of the radio thread makes a record longer;
only `recvServerData` can bring in a long one.

* `step_sized`: an event that is no frame from the server keeps the records short.
* `trySave_sized_iff`: a try to save a frame keeps them short if and only if it
  saves no long one.
* `ShortRecords.fitsBuffers`: short records fit into the buffers.
-/

namespace Abox.Radio

open Segments Loops

/-- The records of the online Cboxes are of at most `BUFF_LEN` bytes. -/
def ShortRecords (s : AboxInformation) : Prop :=
  ∀ i < s.cboxOnlineNum, ∀ d ∈ queue (s.cboxInfo i), d.dataLength ≤ buffLen

/-- So is what a poll sends. -/
structure Sized (r : Subg) : Prop where
  records : ShortRecords r.aboxInfo
  send : ∀ p, r.poll = some p → p.sendSize ≤ buffLen

/-! ## The table -/

theorem SameQueues.shortRecords {s s' : AboxInformation} (h : SameQueues s s')
    (hs : ShortRecords s) : ShortRecords s' := by
  intro i hi d hd
  rw [h.list] at hd
  exact hs i (by rw [← h.online]; exact hi) d hd

theorem Put.shortRecords {s s' : AboxInformation} {i : ℕ} {bytes : List Byte} {l : List DataInfo}
    (h : Put s s' i bytes l) (hs : ShortRecords s)
    (hl : i < s.cboxOnlineNum → ∀ d ∈ l, d.dataLength ≤ buffLen) : ShortRecords s' := by
  intro j hj d hd
  rw [h.same.online] at hj
  rw [h.list] at hd
  by_cases hji : j = i
  · subst hji
    rw [if_pos rfl] at hd
    exact hl hj d hd
  · rw [if_neg hji] at hd
    exact hs j hj d hd

/-- The queue of slot `i` loses entries, and the others stay. -/
theorem ShortRecords.modifyCbox {s : AboxInformation} {i : ℕ}
    {f : CboxInformation → CboxInformation} (hs : ShortRecords s)
    (hf : ∀ c, (queue (f c)).Sublist (queue c)) : ShortRecords (s.modifyCbox i f) := by
  intro j hj d hd
  rw [AboxInformation.modifyCbox_cboxInfo] at hd
  split_ifs at hd
  · exact hs j hj d ((hf _).subset hd)
  · exact hs j hj d hd

/-- A poll takes records out of the table, and moves others. -/
theorem getPoolDate_shortRecords {s : AboxInformation} (i : ℕ) (hs : ShortRecords s) :
    ShortRecords (getPoolDate s i).2.2 := by
  rcases hq : (s.cboxInfo i).cboxDataInfo.cboxDataList with - | ⟨d, l⟩
  · rw [getPoolDate_of_nil hq]
    exact hs
  · rcases hr : ReadPool s.cboxDataPool d.dataAddr d.dataLength with - | ⟨bytes, pool⟩
    · simp only [getPoolDate, hq, hr]
      exact hs.modifyCbox fun c => List.dropLast_sublist _
    · simp only [getPoolDate, hq, hr]
      have htail : ∀ c : CboxInformation,
          (queue { c with cboxDataInfo := c.cboxDataInfo.tail }).Sublist (queue c) :=
        fun c => List.tail_sublist _
      refine ShortRecords.modifyCbox ?_ htail
      intro j hj e he
      rw [AboxInformation.mapOnline_cboxInfo, if_pos (show j < s.cboxOnlineNum from hj)] at he
      obtain ⟨e', he', rfl⟩ := List.mem_map.1 he
      rw [shiftDataAddr_dataLength]
      exact hs j hj e' he'

/-- What a poll copies to its buffer, and says it has copied. -/
theorem getPoolDate_fits {s : AboxInformation} {i : ℕ} (hi : i < s.cboxOnlineNum)
    (hs : ShortRecords s) :
    (getPoolDate s i).1.length = buffLen ∧ (getPoolDate s i).2.1 ≤ buffLen := by
  rcases hq : (s.cboxInfo i).cboxDataInfo.cboxDataList with - | ⟨d, l⟩
  · rw [getPoolDate_of_nil hq]
    exact ⟨List.length_replicate, Nat.zero_le _⟩
  · have hd : d.dataLength ≤ buffLen := by
      apply hs i hi d
      unfold queue
      rw [hq]
      exact List.mem_cons_self
    rcases hr : ReadPool s.cboxDataPool d.dataAddr d.dataLength with - | ⟨bytes, pool⟩
    · simp only [getPoolDate, hq, hr]
      exact ⟨List.length_replicate, Nat.zero_le _⟩
    · have hbytes : bytes.length ≤ d.dataLength := by
        simp only [ReadPool, Option.ite_none_left_eq_some, Option.some.injEq, Prod.mk.injEq] at hr
        obtain ⟨-, -, -, rfl, -⟩ := hr
        exact List.length_take_le ..
      simp only [getPoolDate, hq, hr]
      refine ⟨?_, hd⟩
      rw [List.length_append, List.length_replicate]
      omega

theorem addCbox_shortRecords {s : AboxInformation} (p_dev_id : Fin devidTypeNum → BitVec 32)
    (hs : ShortRecords s) : ShortRecords (addCbox s p_dev_id).2 := by
  rcases addCbox_cases s p_dev_id with heq | ⟨hn, -, -, hold, hnew, -, -⟩
  · rw [heq]
    exact hs
  · intro i hi d hd
    by_cases hlast : i = s.cboxOnlineNum
    · rw [hlast, hnew] at hd
      exact absurd hd List.not_mem_nil
    · have hlt : i < s.cboxOnlineNum := by omega
      rw [hold i hlt] at hd
      exact hs i hlt d hd

theorem removeCbox_shortRecords {fuel : ℕ} {s s' : AboxInformation} {i : ℕ}
    (h : removeCbox fuel s i = some s') (hs : ShortRecords s) : ShortRecords s' := by
  by_cases hi : i < s.cboxOnlineNum
  · obtain ⟨t, u, ht, hu, rfl⟩ := removeCbox_eq hi h
    have hst := dropSaved_sameQueues ht
    have hsu : ShortRecords u := by
      refine (whileLoop_inv ShortRecords ?_ hu (hst.shortRecords hs)).1
      intro v w hv _ hw
      obtain rfl := Option.some.inj hw
      exact getPoolDate_shortRecords i hv
    have hun : u.cboxOnlineNum = s.cboxOnlineNum :=
      (dropQueue_sameSaved hu).1.online.trans hst.online
    intro j hj d hd
    rw [moveCboxesDown_cboxOnlineNum] at hj
    rw [moveCboxesDown_cboxInfo hj] at hd
    exact hsu (skip i j) (skip_lt (by omega) hj) d hd
  · obtain rfl := removeCbox_of_offline hi h
    exact hs

theorem cleanFrom_shortRecords {fuel : ℕ} {s s' : AboxInformation} {i : ℕ} {c : Option ℕ}
    (h : cleanFrom fuel s i = some (s', c)) (hs : ShortRecords s) : ShortRecords s' := by
  obtain ⟨-, -, t, ht, rfl⟩ | ⟨-, -, rfl⟩ := cleanFrom_cases h
  · intro j hj d hd
    rw [AboxInformation.modifyCbox_cboxInfo] at hd
    split_ifs at hd
    · exact absurd hd List.not_mem_nil
    · exact removeCbox_shortRecords ht hs j hj d hd
  · exact fun j hj => absurd hj (Nat.not_lt_zero j)

/-- What goes back to a queue is what has been taken out of it. -/
theorem requeueSend_shortRecords {s : AboxInformation} {i n : ℕ} (send : List Byte)
    (hs : ShortRecords s) (hn : n ≤ buffLen) : ShortRecords (requeueSend s i send n) := by
  by_cases h : RoomFor s.cboxDataPool (n % 2 ^ 16)
  · apply (requeueSend_of_roomFor i send h).shortRecords hs
    intro hi d hd
    rcases List.mem_cons.1 hd with rfl | hd
    · exact le_trans (Nat.mod_le _ _) hn
    · split_ifs at hd
      · exact hs i hi d (List.dropLast_subset _ hd)
      · exact hs i hi d hd
  · rw [requeueSend_of_not h]
    exact hs

/-! ## Polls -/

theorem sized_pollFrom {r : Subg} (i : ℕ) (hr : ShortRecords r.aboxInfo) :
    Sized (r.pollFrom i) := by
  unfold Subg.pollFrom
  split_ifs with hi
  · refine ⟨?_, fun p hp => ?_⟩
    · exact (sameQueues_sendCheckPack (getPoolDate r.aboxInfo i).2.2 (getPoolDate r.aboxInfo i).1 i
        (getPoolDate r.aboxInfo i).2.1).shortRecords (getPoolDate_shortRecords i hr)
    · obtain rfl := Option.some.inj hp
      exact (getPoolDate_fits hi hr).2
  · exact ⟨hr, fun p hp => by cases hp⟩

theorem answered_sized {s : AboxInformation} {p : Poll} (a : Answer) (hs : ShortRecords s)
    (hp : p.sendSize ≤ buffLen) : ShortRecords (answered s p a).1 ∧
      ∀ q, (answered s p a).2.1 = some q → q.sendSize ≤ buffLen := by
  simp only [answered]
  split_ifs with hend
  · exact ⟨(sameCboxes_setErrTick s _ _ _).queues.shortRecords hs, fun q hq => by cases hq⟩
  · refine ⟨(sameCboxes_advance s _).queues.shortRecords hs, fun q hq => ?_⟩
    obtain rfl := Option.some.inj hq
    exact le_trans (Nat.sub_le _ _) hp

theorem unanswered_sized {s : AboxInformation} {p : Poll} (a : Answer) (hs : ShortRecords s)
    (hp : p.sendSize ≤ buffLen) : ShortRecords (unanswered s p a).1 ∧
      ∀ q, (unanswered s p a).2.1 = some q → q.sendSize ≤ buffLen := by
  have hfail := (sameCboxes_txResultFail s p.cboxIndex).queues.shortRecords hs
  simp only [unanswered]
  split_ifs with herr
  · refine ⟨?_, fun q hq => by cases hq⟩
    apply requeueSend_shortRecords _ _ hp
    apply (saveCboxRecv_sameQueues _ _ _ _).shortRecords
    exact (sameCboxes_setErrTick _ _ _ _).queues.shortRecords hfail
  · refine ⟨(sameCboxes_txResultData _ _).queues.shortRecords hfail, fun q hq => ?_⟩
    obtain rfl := Option.some.inj hq
    exact hp

theorem rxData_sized {s : AboxInformation} {p : Poll} (a : Answer) (hs : ShortRecords s)
    (hp : p.sendSize ≤ buffLen) : ShortRecords (rxData s p a).1 ∧
      ∀ q, (rxData s p a).2.1 = some q → q.sendSize ≤ buffLen := by
  by_cases hmiss : a.Missing
  · rw [rxData_of_missing s p hmiss]
    exact unanswered_sized a hs hp
  · obtain ⟨cboxRecv, n, heq, -⟩ := rxData_of_answer s p hmiss
    rw [heq]
    exact answered_sized a ((sameQueues_received s p a).shortRecords hs) hp

theorem sized_answer {r : Subg} {p : Poll} (a : Answer) (hr : ShortRecords r.aboxInfo)
    (hp : p.sendSize ≤ buffLen) : Sized (r.answer p a) := by
  obtain ⟨hs, hq⟩ := rxData_sized a hr hp
  obtain ⟨q, hrx, heq⟩ | ⟨-, next, hnext, -, -, heq⟩ := answer_cases r p a
  · rw [heq]
    exact ⟨hs, fun q' hq' => hq q' (hrx.trans hq')⟩
  · rw [← hnext] at hs
    rw [heq]
    exact sized_pollFrom _ hs

/-! ## Events -/

/-- An event that is no frame from the server keeps the records short. -/
theorem step_sized {r r' : Subg} {e : Event} (h : r.Step e r')
    (he : ∀ recv, e ≠ .recvServerData recv) (hr : Sized r) : Sized r' := by
  cases h.effect with
  | recvServerData recv => exact absurd rfl (he recv)
  | traverseCbox => exact sized_pollFrom 0 hr.records
  | rxData a hpoll => exact sized_answer a hr.records (hr.send _ hpoll)
  | recvTestPack2 cmd p_dev_id =>
    refine ⟨?_, hr.send⟩
    show ShortRecords (recvTestPack2 r.aboxInfo cmd p_dev_id).2
    unfold recvTestPack2
    split_ifs
    · exact addCbox_shortRecords p_dev_id hr.records
    · exact hr.records
  | removeCbox i _ hs => exact ⟨removeCbox_shortRecords hs hr.records, hr.send⟩
  | cleanCbox hs => exact ⟨cleanFrom_shortRecords hs hr.records, hr.send⟩
  | cleanNext _ hs => exact ⟨cleanFrom_shortRecords hs hr.records, hr.send⟩

/-- The frame is for an online Cbox, and there is room for it in the list of the Cbox
    and in the pool. -/
def Accepted (s : AboxInformation) (recv : List Byte) : Prop :=
  ∃ i, s.findCbox (StPackCmd.ofBytes recv).id = some i ∧
    (queue (s.cboxInfo i)).length < cboxMaxDataList ∧
    RoomFor s.cboxDataPool (StPackCmd.ofBytes recv).frameLen

theorem accepted_iff {s : AboxInformation} {recv : List Byte} {i : ℕ}
    (hfind : s.findCbox (StPackCmd.ofBytes recv).id = some i)
    (hlt : (queue (s.cboxInfo i)).length < cboxMaxDataList) :
    Accepted s recv ↔ ¬ NoRoom s recv := by
  unfold Accepted NoRoom RoomFor
  rw [hfind]
  constructor
  · rintro ⟨j, hj, -, hroom⟩ ⟨j', hj', -, hno⟩
    omega
  · intro h
    refine ⟨i, rfl, hlt, ?_⟩
    by_contra hno
    exact h ⟨i, rfl, hlt, by omega⟩

/-- A try to save a frame keeps the records short if and only if the frame is short or
    not accepted. -/
theorem trySave_sized_iff {s : System} {recv : List Byte} (hs : ShortRecords s.aboxInfo) :
    ShortRecords (s.trySave recv).aboxInfo ↔
      (Accepted s.aboxInfo recv → (StPackCmd.ofBytes recv).frameLen ≤ buffLen) := by
  rcases recvServerData_cases s.aboxInfo recv with ⟨heq, hno⟩ | ⟨-, heq, hfull⟩ |
      ⟨hno, i, s', heq, hfind, -, hlt, hput⟩
  · have hkeep : ShortRecords (s.trySave recv).aboxInfo := by
      simp only [System.trySave, heq]
      split_ifs
      · exact hs
      · exact hs
    refine iff_of_true hkeep ?_
    rintro ⟨i, hi, hlt, hroom⟩
    exact absurd hno ((accepted_iff hi hlt).1 ⟨i, hi, hlt, hroom⟩)
  · have hkeep : ShortRecords (s.trySave recv).aboxInfo := by
      simp only [System.trySave, heq]
      exact hs
    refine iff_of_true hkeep ?_
    rintro ⟨i, hi, hlt, -⟩
    exact absurd (hfull i hi) (Nat.not_le.2 hlt)
  · have haccepted : Accepted s.aboxInfo recv := (accepted_iff hfind hlt).2 hno
    have hi := findCbox_lt hfind
    have htable : (s.trySave recv).aboxInfo = s' := by simp only [System.trySave, heq]
    rw [htable]
    constructor
    · intro h _
      apply h i (by rw [hput.same.online]; exact hi)
        (nextRecord s.aboxInfo.cboxDataPool (StPackCmd.ofBytes recv).frameLen)
      rw [hput.list, if_pos rfl]
      exact List.mem_append_right _ (List.mem_singleton.2 rfl)
    · intro hlen
      apply hput.shortRecords hs
      intro _ d hd
      rcases List.mem_append.1 hd with hd | hd
      · exact hs i hi d hd
      · rw [List.mem_singleton.1 hd]
        exact hlen haccepted

/-! ## Buffers -/

/-- The copies that `getPoolDate` makes of the first record of an online Cbox, and of
    those behind it when it is called again and again. -/
def FitsBuffers (s : AboxInformation) : Prop :=
  ∀ i < s.cboxOnlineNum, ∀ n,
    (getPoolDate ((fun t => (getPoolDate t i).2.2)^[n] s) i).1.length = buffLen

/-- Short records fit into the buffers of `traverseCbox` and `removeCbox`. -/
theorem ShortRecords.fitsBuffers {s : AboxInformation} (hs : ShortRecords s) : FitsBuffers s := by
  intro i hi n
  have hrun : ShortRecords ((fun t => (getPoolDate t i).2.2)^[n] s) ∧
      ((fun t => (getPoolDate t i).2.2)^[n] s).cboxOnlineNum = s.cboxOnlineNum := by
    induction n with
    | zero => exact ⟨hs, rfl⟩
    | succ n ih =>
      rw [Function.iterate_succ_apply']
      exact ⟨getPoolDate_shortRecords i ih.1, (getPoolDate_sameSaved _ i).online.trans ih.2⟩
  exact (getPoolDate_fits (by rw [hrun.2]; exact hi) hrun.1).1

end Abox.Radio
