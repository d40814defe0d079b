import Abox.Radio.Calls

/-!
# The ledger of the pool of server frames

The records of the online Cboxes should tile the bytes in use of `cboxDataPool`
(`Ledger`): no record dangles, no byte is leaked.

* `ledger_iff`: in a run from start-up this holds in every state exactly when
  every call meets `LedgerOk`.
* `requeue_full_list`: a poll that fails while the list is full breaks it.
-/

namespace Abox.Radio

open Segments Loops Runs

/-- The records of the online Cboxes are non-empty, pairwise disjoint and cover
    the bytes in use of `cboxDataPool` exactly. -/
def Ledger (s : AboxInformation) : Prop :=
  Tiles s.cboxDataPool.entrySize ((records queue s).map DataInfo.seg)

theorem ledger_init : Ledger initAboxInformation := Tiles.nil

theorem SameQueues.ledger_congr {s s' : AboxInformation} (h : SameQueues s s') :
    Ledger s' ↔ Ledger s := by
  unfold Ledger
  rw [h.records, h.pool]

/-- The records, those of slot `i` first. -/
theorem segs_perm {s : AboxInformation} {i : ℕ} (hi : i < s.cboxOnlineNum) :
    ((records queue s).map DataInfo.seg).Perm
      ((queue (s.cboxInfo i) ++ others queue s i).map DataInfo.seg) :=
  (records_perm hi).map _

/-! ## Putting a frame into a queue -/

section Put

variable {s s' : AboxInformation} {i : ℕ} {bytes : List Byte} {l : List DataInfo}

theorem Put.others (h : Put s s' i bytes l) (hi : i < s.cboxOnlineNum) :
    others queue s' i = others queue s i :=
  others_congr h.same.online hi fun j _ hji => by rw [h.list j, if_neg hji]

theorem Put.segs_perm (h : Put s s' i bytes l) (hi : i < s.cboxOnlineNum) :
    ((records queue s').map DataInfo.seg).Perm
      ((l ++ Radio.others queue s i).map DataInfo.seg) := by
  have := Radio.segs_perm (s := s') (i := i) (by rw [h.same.online]; exact hi)
  rwa [h.list i, if_pos rfl, h.others hi] at this

theorem Put.ledger (h : Put s s' i bytes l) (hi : i < s.cboxOnlineNum) (h0 : 0 < bytes.length)
    (hl : l.Perm (nextRecord s.cboxDataPool bytes.length :: queue (s.cboxInfo i)))
    (hled : Ledger s) : Ledger s' := by
  have hnew := (hled.perm (Radio.segs_perm hi)).append h0
  unfold Ledger
  rw [h.entrySize]
  refine hnew.perm (List.Perm.symm ?_)
  exact (h.segs_perm hi).trans ((hl.append_right _).map _)

/-- The last record of a full queue is overwritten: its bytes are leaked. -/
theorem Put.not_ledger_of_full (h : Put s s' i bytes l) (hi : i < s.cboxOnlineNum)
    (h0 : 0 < bytes.length) (hq : queue (s.cboxInfo i) ≠ [])
    (hl : l = nextRecord s.cboxDataPool bytes.length :: (queue (s.cboxInfo i)).dropLast)
    (hled : Ledger s) : ¬ Ledger s' := by
  intro hled'
  unfold Ledger at hled'
  rw [h.entrySize] at hled'
  have hsplit : (queue (s.cboxInfo i)).Perm
      ((queue (s.cboxInfo i)).getLast hq :: (queue (s.cboxInfo i)).dropLast) := by
    conv_lhs => rw [← List.dropLast_append_getLast hq]
    exact List.perm_append_singleton ..
  have hall : Tiles (s.cboxDataPool.entrySize + bytes.length)
      (((queue (s.cboxInfo i)).getLast hq :: l ++ Radio.others queue s i).map DataInfo.seg) := by
    refine ((hled.perm (Radio.segs_perm hi)).append h0).perm ?_
    rw [hl]
    have := ((hsplit.append_right (Radio.others queue s i)).cons
      (nextRecord s.cboxDataPool bytes.length)).map DataInfo.seg
    exact this.trans ((List.Perm.swap ..).map _)
  exact hall.not_drop (hled'.perm (h.segs_perm hi))

/-- A record in a slot that is not online is not found again. -/
theorem Put.not_ledger_of_offline (h : Put s s' i bytes l) (hi : s.cboxOnlineNum ≤ i)
    (h0 : 0 < bytes.length) (hled : Ledger s) : ¬ Ledger s' := by
  have hrec : records queue s' = records queue s :=
    records_congr h.same.online fun j hj => by rw [h.list j, if_neg (by omega)]
  unfold Ledger
  rw [hrec, h.entrySize]
  exact Tiles.not_grow hled h0

end Put

/-! ## Taking a frame out of a queue -/

theorem Ledger.inside {s : AboxInformation} (h : Ledger s) {i : ℕ} {d : DataInfo}
    (hi : i < s.cboxOnlineNum) (hd : d ∈ queue (s.cboxInfo i)) :
    d.seg.Inside s.cboxDataPool.entrySize :=
  h.1.1 _ (List.mem_map_of_mem (mem_records hi hd))

theorem Taken.others {s s' : AboxInformation} {i : ℕ} {d : DataInfo} {l : List DataInfo}
    (h : Taken s s' i d l) (hi : i < s.cboxOnlineNum) :
    others queue s' i = (others queue s i).map (shiftDataAddr d) :=
  others_map h.same.online hi fun j hj hji => by rw [h.list j hj, if_neg hji]

theorem Taken.segs_perm {s s' : AboxInformation} {i : ℕ} {d : DataInfo} {l : List DataInfo}
    (h : Taken s s' i d l) (hi : i < s.cboxOnlineNum) :
    ((records queue s').map DataInfo.seg).Perm
      (((l ++ Radio.others queue s i).map DataInfo.seg).map (Seg.closeUp d.seg)) := by
  have hperm := Radio.segs_perm (s := s') (i := i) (by rw [h.same.online]; exact hi)
  rwa [h.list i hi, if_pos rfl, h.others hi, ← List.map_append, map_seg_shift] at hperm

theorem Taken.ledger {s s' : AboxInformation} {i : ℕ} {d : DataInfo} {l : List DataInfo}
    (h : Taken s s' i d l) (hi : i < s.cboxOnlineNum) (hq : queue (s.cboxInfo i) = d :: l)
    (hled : Ledger s) : Ledger s' := by
  have hcut := hled.perm (Radio.segs_perm hi)
  rw [hq, List.cons_append, List.map_cons] at hcut
  unfold Ledger
  rw [h.entrySize]
  exact hcut.closeUp.perm (h.segs_perm hi).symm

theorem getPoolDate_ledger {s : AboxInformation} {i : ℕ} (hi : i < s.cboxOnlineNum)
    (hled : Ledger s) : Ledger (getPoolDate s i).2.2 := by
  rcases hq : queue (s.cboxInfo i) with - | ⟨d, l⟩
  · rw [getPoolDate_of_nil hq]
    exact hled
  · obtain ⟨s', heq, htaken⟩ := getPoolDate_eq hi hq (hled.inside hi (by simp [hq]))
    rw [heq]
    exact htaken.ledger hi hq hled

/-! ## Adding and removing a Cbox -/

theorem addCbox_ledger {s : AboxInformation} (p_dev_id : Fin devidTypeNum → BitVec 32)
    (hled : Ledger s) : Ledger (addCbox s p_dev_id).2 := by
  rcases addCbox_cases s p_dev_id with heq | ⟨hn, hpool, -, hold, hnew, -, -⟩
  · rw [heq]
    exact hled
  · unfold Ledger
    rw [hpool, records_addCbox hn hold hnew]
    exact hled

theorem dropQueue_ledger {fuel : ℕ} {s t : AboxInformation} {i : ℕ} (hi : i < s.cboxOnlineNum)
    (h : dropQueue fuel s i = some t) (hled : Ledger s) : Ledger t := by
  refine (whileLoop_inv (fun t => t.cboxOnlineNum = s.cboxOnlineNum ∧ Ledger t) ?_ h
    ⟨rfl, hled⟩).1.2
  rintro u v ⟨hn, hled⟩ - hv
  obtain rfl := Option.some.inj hv
  exact ⟨(getPoolDate_sameSaved u i).online.trans hn, getPoolDate_ledger (by omega) hled⟩

theorem removeCbox_ledger {fuel : ℕ} {s s' : AboxInformation} {i : ℕ}
    (h : removeCbox fuel s i = some s') (hled : Ledger s) : Ledger s' := by
  by_cases hi : i < s.cboxOnlineNum
  · obtain ⟨t, u, ht, hu, rfl⟩ := removeCbox_eq hi h
    have hst := dropSaved_sameQueues ht
    obtain ⟨htu, hnil⟩ := dropQueue_sameSaved hu
    have hti : i < t.cboxOnlineNum := by rw [hst.online]; exact hi
    have hui : i < u.cboxOnlineNum := by rw [htu.online]; exact hti
    have hledu : Ledger u := dropQueue_ledger hti hu (hst.ledger_congr.2 hled)
    have hperm := segs_perm hui
    rw [hnil, List.nil_append] at hperm
    unfold Ledger
    rw [records_moveCboxesDown]
    exact hledu.perm hperm
  · obtain rfl := removeCbox_of_offline hi h
    exact hled

theorem cleanCbox_ledger {fuel : ℕ} {s s' : AboxInformation} (h : cleanCbox fuel s = some s') :
    Ledger s' := by
  unfold cleanCbox at h
  obtain ⟨⟨t, k⟩, -, h⟩ := Option.bind_eq_some_iff.1 h
  obtain rfl := Option.some.inj h
  exact Tiles.nil

/-! ## Runs -/

/-- The calls that keep the ledger, by the state before the call: the pool is not
    emptied while frames wait in it, and what a failed poll has not sent goes
    back to an online Cbox whose list is not full. -/
def LedgerOk (s : System) : Call → Prop
  | .recvServerData recv => s.Overflow recv → records queue s.aboxInfo = []
  | .retry => ∀ recv, s.saving = some recv → s.Overflow recv → records queue s.aboxInfo = []
  | .requeueSend i _ sendSize => RoomFor s.aboxInfo.cboxDataPool (sendSize % 2 ^ 16) →
      i < s.aboxInfo.cboxOnlineNum ∧ (queue (s.aboxInfo.cboxInfo i)).length < cboxMaxDataList
  | _ => True

instance (s : AboxInformation) (recv : List Byte) : Decidable (NoRoom s recv) :=
  inferInstanceAs (Decidable (∃ i ∈ s.findCbox (StPackCmd.ofBytes recv).id,
    (queue (s.cboxInfo i)).length < cboxMaxDataList ∧
    ((StPackCmd.ofBytes recv).frameLen = 0 ∨
      cboxDataPoolSize < s.cboxDataPool.entrySize + (StPackCmd.ofBytes recv).frameLen)))

instance (s : System) (recv : List Byte) : Decidable (s.Overflow recv) :=
  inferInstanceAs (Decidable (NoRoom s.aboxInfo recv ∧ s.saveErr > 1000))

instance (s : System) : (c : Call) → Decidable (LedgerOk s c)
  | .recvServerData recv =>
    inferInstanceAs (Decidable (s.Overflow recv → records queue s.aboxInfo = []))
  | .retry => inferInstanceAs (Decidable (∀ recv ∈ s.saving, s.Overflow recv →
      records queue s.aboxInfo = []))
  | .requeueSend i _ sendSize =>
    inferInstanceAs (Decidable (RoomFor s.aboxInfo.cboxDataPool (sendSize % 2 ^ 16) →
      i < s.aboxInfo.cboxOnlineNum ∧ (queue (s.aboxInfo.cboxInfo i)).length < cboxMaxDataList))
  | .processDataFromServer | .getPoolDate _ | .processExistingData _ _ | .saveCboxRecv _ _ _
  | .addCbox _ | .removeCbox _ | .cleanCbox => .isTrue trivial

theorem trySave_ledger_iff {s : System} {recv : List Byte} (hled : Ledger s.aboxInfo) :
    Ledger (s.trySave recv).aboxInfo ↔
      (s.Overflow recv → records queue s.aboxInfo = []) := by
  rcases trySave_cases s recv with ⟨hno, heq | ⟨i, hi, h0, hput⟩⟩ | ⟨hover, heq⟩
  · rw [heq]
    exact iff_of_true hled fun h => absurd h hno
  · refine iff_of_true ?_ fun h => absurd h hno
    refine hput.ledger hi (by simpa using h0) ?_ hled
    rw [length_readN]
    exact List.perm_append_singleton ..
  · rw [heq]
    simp only [hover, true_implies]
    exact tiles_zero_iff.trans List.map_eq_nil_iff

theorem requeueSend_ledger_iff {s : AboxInformation} {i n : ℕ} {send : List Byte}
    (hled : Ledger s) : Ledger (requeueSend s i send n) ↔
      (RoomFor s.cboxDataPool (n % 2 ^ 16) →
        i < s.cboxOnlineNum ∧ (queue (s.cboxInfo i)).length < cboxMaxDataList) := by
  by_cases hroom : RoomFor s.cboxDataPool (n % 2 ^ 16)
  · have hput := requeueSend_of_roomFor i send hroom
    have h0 : 0 < (readN send (n % 2 ^ 16)).length := by rw [length_readN]; exact hroom.1
    simp only [hroom, true_implies]
    by_cases hi : i < s.cboxOnlineNum
    · by_cases hfull : (queue (s.cboxInfo i)).length = cboxMaxDataList
      · rw [if_pos hfull] at hput
        refine iff_of_false (hput.not_ledger_of_full hi h0 ?_ (by rw [length_readN]) hled) ?_
        · intro hnil
          rw [hnil] at hfull
          exact absurd hfull (by decide)
        · omega
      · rw [if_neg hfull] at hput
        have hle : (queue (s.cboxInfo i)).length ≤ cboxMaxDataList :=
          (s.cboxInfo i).cboxDataInfo.entry_le
        exact iff_of_true (hput.ledger hi h0 (by rw [length_readN]) hled) (by omega)
    · exact iff_of_false (hput.not_ledger_of_offline (Nat.le_of_not_lt hi) h0 hled)
        fun h => hi h.1
  · rw [requeueSend_of_not hroom]
    exact iff_of_true hled fun h => absurd h hroom

/-- One call keeps the ledger exactly if it meets `LedgerOk`. -/
theorem step_ledger_iff {s s' : System} {c : Call} (hled : Ledger s.aboxInfo)
    (h : s.Step c s') : Ledger s'.aboxInfo ↔ LedgerOk s c := by
  cases h.effect with
  | processDataFromServer => exact iff_of_true hled trivial
  | recvServerData recv => exact trySave_ledger_iff hled
  | retry hrecv =>
    simp only [LedgerOk, hrecv, Option.some.injEq, forall_eq']
    exact trySave_ledger_iff hled
  | getPoolDate hi => exact iff_of_true (getPoolDate_ledger hi hled) trivial
  | requeueSend i send n => exact requeueSend_ledger_iff hled
  | processExistingData saveBuff =>
    exact iff_of_true ((processExistingData_sameQueues ..).ledger_congr.2 hled) trivial
  | saveCboxRecv i cboxRecv n =>
    exact iff_of_true ((saveCboxRecv_sameQueues ..).ledger_congr.2 hled) trivial
  | addCbox p_dev_id => exact iff_of_true (addCbox_ledger p_dev_id hled) trivial
  | removeCbox ha => exact iff_of_true (removeCbox_ledger ha hled) trivial
  | cleanCbox ha => exact iff_of_true (cleanCbox_ledger ha) trivial

/-- In a run from start-up the ledger holds in every state exactly when every
    call meets `LedgerOk`. The buffers that records are copied to have no end
    here: of `BUFF_LEN` bytes, a longer record overruns them (`Abox.Radio.Fifo`,
    `Abox.Radio.Removal`), and the call is none that returns. -/
theorem ledger_iff {tr : List (Call × System)} (h : Path System.Step System.init tr) :
    Always (fun s => Ledger s.aboxInfo) System.init tr ↔ AllSteps LedgerOk System.init tr :=
  h.always_iff (fun _ => True) _ (fun _ _ => trivial)
    (fun _ hled hs => step_ledger_iff hled hs) trivial ledger_init

/-- An empty frame for the Cbox with the id 1. -/
def frameTo1 : List Byte := [0x23, 0x20, 1, 0, 0, 0, 0, 0, 0x22, 0x15]

/-- A frame with two bytes of data for the Cbox with the id 2. -/
def frameTo2 : List Byte := [0x23, 0x20, 2, 0, 0, 0, 2, 0, 0x41, 0x42, 0x28, 0xA3]

/-- Two Cboxes register and frames arrive for both of them; a poll of the first one takes a frame,
    fails, and puts it back; then the second one is removed. -/
def queueCalls : List Call :=
  [.addCbox fun _ => 1, .addCbox fun _ => 2, .processDataFromServer, .recvServerData frameTo1,
    .recvServerData frameTo2, .recvServerData frameTo1, .recvServerData frameTo2, .getPoolDate 0,
    .saveCboxRecv 0 frameTo1 5, .requeueSend 0 frameTo1 10, .processExistingData 0 [],
    .removeCbox 1, .recvServerData frameTo1]

/-- The frames for the first one wait in their order, and nothing else is in the pool. -/
theorem ledger_queueCalls : ∃ tr, exec (System.step 3) System.init queueCalls = some tr ∧
    records queue (last System.init tr).aboxInfo = [⟨10, 10⟩, ⟨0, 10⟩, ⟨20, 10⟩] ∧
    Always (fun s => Ledger s.aboxInfo) System.init tr := by
  obtain ⟨tr, htr, hok, hrecords⟩ := exists_exec (P := fun tr => AllSteps LedgerOk System.init tr ∧
      records queue (last System.init tr).aboxInfo = [⟨10, 10⟩, ⟨0, 10⟩, ⟨20, 10⟩])
    (show (exec (System.step 3) System.init queueCalls).any _ = true by decide +kernel)
  exact ⟨tr, htr, hrecords, (ledger_iff (exec_path (fun h => ⟨3, h⟩) htr)).2 hok⟩

/-! ## A poll that fails while the list is full -/

/-- Ten frames fill the list of a Cbox; one is taken for a poll, another one
    arrives meanwhile, and the poll fails. -/
def fullListCalls : List Call :=
  [.addCbox fun _ => 1, .processDataFromServer] ++
    List.replicate 10 (.recvServerData frameTo1) ++
    [.getPoolDate 0, .recvServerData frameTo1, .requeueSend 0 frameTo1 10]

/-- The frame that arrived last is dropped from the list, but its ten bytes stay
    in the pool. -/
theorem requeue_full_list : ∃ tr, exec (System.step 0) System.init fullListCalls = some tr ∧
    Path System.Step System.init tr ∧
    ¬ Always (fun s => Ledger s.aboxInfo) System.init tr := by
  have hsome : (exec (System.step 0) System.init fullListCalls).isSome = true := by
    decide +kernel
  obtain ⟨tr, htr⟩ := Option.isSome_iff_exists.1 hsome
  have hend : ((exec (System.step 0) System.init fullListCalls).map fun tr =>
      ((last System.init tr).aboxInfo.cboxDataPool.entrySize,
        records queue (last System.init tr).aboxInfo)) =
      some (110, [⟨100, 10⟩, ⟨0, 10⟩, ⟨10, 10⟩, ⟨20, 10⟩, ⟨30, 10⟩, ⟨40, 10⟩, ⟨50, 10⟩, ⟨60, 10⟩,
        ⟨70, 10⟩, ⟨80, 10⟩]) := by
    decide +kernel
  rw [htr, Option.map_some] at hend
  obtain ⟨hentry, hrec⟩ := Prod.mk.inj (Option.some.inj hend)
  refine ⟨tr, htr, exec_path (fun h => ⟨0, h⟩) htr, fun halways => ?_⟩
  have hled : Ledger _ := halways.last
  unfold Ledger at hled
  rw [hentry, hrec] at hled
  -- no record covers the cell 90
  exact absurd (hled.2 90 (by decide) (by decide)) (by decide)

end Abox.Radio
