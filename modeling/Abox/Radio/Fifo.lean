import Abox.Radio.Disconnect
import Abox.Radio.Queues

/-!
# Delivery of server frames to a Cbox

The bytes of the frames accepted for a Cbox should be delivered in the order of
their arrival: what its answered fragments carried, then what still waits for
it, is what was accepted (`Fifo`). What waits is what the poll under way has
not sent, then its queue.

* `Conserves`: one event moves bytes along and loses none.
* `fifo_iff`: in a run from the registration of a Cbox, as long as it stays
  online, its frames are delivered in order exactly when no frame is accepted
  that finds its list full or another Cbox with its id, and no poll fails whose
  unsent bytes find the list full or no room in the pool.
* `frame_to_full_list`: a frame that is accepted and dropped.
-/

namespace Abox.Radio

open Segments Loops Runs

/-! ## What a poll holds -/

/-- The bytes the poll has not sent. -/
def Poll.unsent (p : Poll) : List Byte := readN p.send p.sendSize

/-- The bytes of the frame in the fragment under way. -/
def Poll.payload (p : Poll) : List Byte := readN p.send p.checkPack1.lenth.toNat

/-- The fragment under way is the next one, the last if all fits into it. -/
structure Poll.Sending (p : Poll) : Prop where
  fits : p.sendSize ≤ cboxDataPoolSize
  lenth : p.checkPack1.lenth.toNat = min dataLengthMax p.sendSize
  reg : p.checkPack1.reg = sendEnd ↔ p.sendSize ≤ dataLengthMax

theorem sending_nextPackage {p : Poll} (h : p.sendSize ≤ cboxDataPoolSize) :
    p.nextPackage.Sending := by
  have hmax : dataLengthMax = 57 := rfl
  refine ⟨h, ?_, ?_⟩
  · show (BitVec.ofNat 8 (if dataLengthMax < p.sendSize then dataLengthMax else p.sendSize)).toNat =
      min dataLengthMax p.sendSize
    rw [BitVec.toNat_ofNat, hmax]
    split_ifs <;> omega
  · show (if dataLengthMax < p.sendSize then sendKeep else sendEnd) = sendEnd ↔
      p.sendSize ≤ dataLengthMax
    split_ifs with hlt
    · exact iff_of_false (by decide) (Nat.not_le.2 hlt)
    · exact iff_of_true rfl (Nat.le_of_not_lt hlt)

/-- The last fragment carries all that is left. -/
theorem Poll.Sending.payload_of_end {p : Poll} (h : p.Sending)
    (hreg : p.checkPack1.reg = sendEnd) : p.payload = p.unsent := by
  unfold Poll.payload Poll.unsent
  rw [h.lenth, min_eq_right (h.reg.1 hreg)]

/-- What waits for the Cbox in slot `k` in a poll. -/
def unsentTo (poll : Option Poll) (k : ℕ) : List Byte :=
  match poll with
  | some p => if p.cboxIndex = k then p.unsent else []
  | none => []

/-- All that waits for the Cbox in slot `k`. -/
def Subg.waiting (r : Subg) (k : ℕ) : List Byte := unsentTo r.poll k ++ queued r.aboxInfo k

/-! ## A Cbox and its frames -/

/-- The Cbox stays online and in a slot: it is not removed, and no `cleanCbox`
    runs. -/
def Event.keeps (k : ℕ) : Event → Bool
  | .removeCbox i => i != k
  | .cleanCbox => false
  | .cleanNext => false
  | _ => true

/-- The slot, after an event, of the Cbox that was in slot `k`. -/
def slotAfterEvent (k : ℕ) : Event → ℕ
  | .removeCbox i => slotAfterRemove i k
  | _ => k

/-- The frame is addressed to the Cbox in slot `k`, and `recvServerData` accepts
    it. -/
def Accepts (s : AboxInformation) (k : ℕ) (recv : List Byte) : Prop :=
  (StPackCmd.ofBytes recv).id = (s.cboxInfo k).modId ∧ (recvServerData s recv).1 = .rtEok

instance (s : AboxInformation) (k : ℕ) (recv : List Byte) : Decidable (Accepts s k recv) :=
  inferInstanceAs (Decidable (_ ∧ _))

/-- The bytes accepted for the Cbox in slot `k`. -/
def acceptedBytes (r : Subg) (k : ℕ) : Event → List Byte
  | .recvServerData recv =>
    if Accepts r.aboxInfo k recv then readN recv (StPackCmd.ofBytes recv).frameLen else []
  | _ => []

/-- The bytes of the fragment of the Cbox in slot `k` that is answered. -/
def ackedBytes (r : Subg) (k : ℕ) : Event → List Byte
  | .rxData a =>
    match r.poll, a.subgRecv with
    | some p, some subgRecv =>
      if p.cboxIndex = k ∧ (recvPackage r.aboxInfo p subgRecv).1 = .rtEok then p.payload else []
    | _, _ => []
  | _ => []

/-- The system as one Cbox sees it: its slot, and the bytes answered by it and
    accepted for it since its registration. -/
structure CboxView where
  subg : Subg
  cboxIndex : ℕ
  acked : List Byte
  accepted : List Byte

/-- One event during which the Cbox stays online. -/
def CboxView.step (fuel : ℕ) (v : CboxView) (e : Event) : Option CboxView :=
  if e.keeps v.cboxIndex then
    (v.subg.step fuel e).map fun r =>
      { subg := r
        cboxIndex := slotAfterEvent v.cboxIndex e
        acked := v.acked ++ ackedBytes v.subg v.cboxIndex e
        accepted := v.accepted ++ acceptedBytes v.subg v.cboxIndex e }
  else none

def CboxView.Step (v : CboxView) (e : Event) (v' : CboxView) : Prop :=
  ∃ fuel, v.step fuel e = some v'

/-- What the Cbox has answered, then what waits for it, is what was accepted for
    it. Between two polls of it, what waits is its queue. -/
def Fifo (v : CboxView) : Prop :=
  v.acked ++ v.subg.waiting v.cboxIndex = v.accepted

/-- A frame for an online Cbox fits into the buffer of the poll that takes it. A
    longer one overruns `getData`, which `Abox.Radio.Poll` does not follow. -/
def FitsGetData (r : Subg) : Event → Prop
  | .recvServerData recv => r.aboxInfo.findCbox (StPackCmd.ofBytes recv).id ≠ none →
      (StPackCmd.ofBytes recv).frameLen ≤ buffLen
  | _ => True

/-- A frame for the Cbox, unless it is rejected for lack of room in the pool,
    finds room in the list and no other Cbox with the id before it; a poll of the
    Cbox that fails with something unsent finds room for it in both. -/
def Lossless (r : Subg) (k : ℕ) : Event → Prop
  | .recvServerData recv =>
    (StPackCmd.ofBytes recv).id = (r.aboxInfo.cboxInfo k).modId → ¬ NoRoom r.aboxInfo recv →
      0 < (StPackCmd.ofBytes recv).frameLen →
      r.aboxInfo.findCbox (StPackCmd.ofBytes recv).id = some k ∧
        (queue (r.aboxInfo.cboxInfo k)).length < cboxMaxDataList
  | .rxData a => ∀ p, r.poll = some p → p.cboxIndex = k → a.Missing → 10 ≤ p.errTimes →
      0 < p.sendSize → RoomFor r.aboxInfo.cboxDataPool p.sendSize ∧
        (queue (r.aboxInfo.cboxInfo k)).length < cboxMaxDataList
  | _ => True

/-- The event moves the bytes of the Cbox along. -/
def Conserves (r r' : Subg) (k k' : ℕ) (e : Event) : Prop :=
  ackedBytes r k e ++ r'.waiting k' = r.waiting k ++ acceptedBytes r k e

/-! ## Server frames -/

theorem findCbox_modId {s : AboxInformation} {id : BitVec 32} {i : ℕ}
    (h : s.findCbox id = some i) : id = (s.cboxInfo i).modId := by
  have := List.find?_some h
  simpa using this

theorem accepts_iff {s : AboxInformation} {k : ℕ} {recv : List Byte} : Accepts s k recv ↔
    (StPackCmd.ofBytes recv).id = (s.cboxInfo k).modId ∧ ¬ NoRoom s recv := by
  unfold Accepts
  rcases recvServerData_cases s recv with ⟨heq, hno⟩ | ⟨hno, heq, -⟩ | ⟨hno, i, s', heq, -⟩
  · rw [heq]
    exact iff_of_false (fun h => (by cases h.2)) fun h => h.2 hno
  · rw [heq]
    exact and_congr_right fun _ => iff_of_true rfl hno
  · rw [heq]
    exact and_congr_right fun _ => iff_of_true rfl hno

theorem recvServerData_queuesPacked {s : AboxInformation} (recv : List Byte)
    (hp : QueuesPacked s) : QueuesPacked (recvServerData s recv).2 := by
  rcases recvServerData_cases s recv with ⟨heq, -⟩ | ⟨-, heq, -⟩ | ⟨-, i, s', heq, -, h0, -, hput⟩
  · rw [heq]
    exact hp
  · rw [heq]
    exact hp
  · rw [heq]
    refine hput.queuesPacked (by rw [length_readN]; exact h0) ?_ (List.Sublist.refl _) hp
    rw [length_readN]
    exact List.perm_append_singleton ..

theorem conserves_recvServerData {r r' : Subg} {k : ℕ} {recv : List Byte}
    (hk : k < r.aboxInfo.cboxOnlineNum) (hp : QueuesPacked r.aboxInfo)
    (hinfo : r'.aboxInfo = (recvServerData r.aboxInfo recv).2) (hpoll : r'.poll = r.poll) :
    Conserves r r' k k (.recvServerData recv) ↔ Lossless r k (.recvServerData recv) := by
  have hlossless : Lossless r k (.recvServerData recv) ↔ (Accepts r.aboxInfo k recv →
      0 < (StPackCmd.ofBytes recv).frameLen →
      r.aboxInfo.findCbox (StPackCmd.ofBytes recv).id = some k ∧
        (queue (r.aboxInfo.cboxInfo k)).length < cboxMaxDataList) := by
    rw [accepts_iff, and_imp]
    rfl
  rw [hlossless]
  set n := (StPackCmd.ofBytes recv).frameLen with hn
  unfold Conserves Subg.waiting
  rw [hinfo, hpoll]
  show [] ++ (unsentTo r.poll k ++ queued (recvServerData r.aboxInfo recv).2 k) =
      unsentTo r.poll k ++ queued r.aboxInfo k ++
        (if Accepts r.aboxInfo k recv then readN recv n else []) ↔
    (Accepts r.aboxInfo k recv → 0 < n → _)
  rw [List.nil_append, List.append_assoc, List.append_cancel_left_eq]
  -- a frame that changes nothing is lost if it has been accepted
  have hlost : queued r.aboxInfo k = queued r.aboxInfo k ++
      (if Accepts r.aboxInfo k recv then readN recv n else []) ↔
        (Accepts r.aboxInfo k recv → n = 0) := by
    rw [List.self_eq_append_right]
    split_ifs with hacc
    · rw [← List.length_eq_zero_iff, length_readN]
      exact ⟨fun h _ => h, fun h => h hacc⟩
    · exact iff_of_true rfl fun h => absurd h hacc
  rcases recvServerData_cases r.aboxInfo recv with ⟨heq, -⟩ | ⟨-, heq, hfull⟩ |
      ⟨-, i, s', heq, hfind, h0, hroom, hput⟩
  · have hacc : ¬ Accepts r.aboxInfo k recv := fun h => by
      rw [Accepts, heq] at h
      cases h.2
    rw [heq]
    exact iff_of_true (hlost.2 fun h => absurd h hacc) fun h => absurd h hacc
  · rw [heq]
    refine hlost.trans ⟨fun h hacc hpos => absurd (h hacc) (by omega), fun h hacc => ?_⟩
    by_contra hne
    obtain ⟨hfind, hlt⟩ := h hacc (Nat.pos_of_ne_zero hne)
    exact absurd (hfull k hfind) (Nat.not_le.2 hlt)
  · rw [heq]
    by_cases hki : k = i
    · subst hki
      have hacc : Accepts r.aboxInfo k recv := ⟨findCbox_modId hfind, by rw [heq]⟩
      rw [if_pos hacc]
      have hlast := Put.queued_last (by rw [length_readN]; exact hput) hp hk
      exact iff_of_true hlast fun _ _ => ⟨hfind, hroom⟩
    · rw [hput.queued_other hp hk hki, hlost]
      constructor
      · exact fun h hacc hpos => absurd (h hacc) (by omega)
      · intro h hacc
        by_contra hne
        have := (h hacc h0).1
        rw [hfind] at this
        exact hki (Option.some.inj this).symm

/-! ## Polls -/

theorem sameQueues_sendCheckPack (s : AboxInformation) (send : List Byte) (i n : ℕ) :
    SameQueues s (sendCheckPack s send i n).1 :=
  ((sameCboxes_nextPackNum s i).queues.trans (processExistingData_sameQueues _ i _)).trans
    (sameCboxes_txResultData _ i).queues

/-- What a poll under way needs for what follows. -/
def SendsNext (r : Subg) : Prop := ∀ p, r.poll = some p → p.Sending

/-- The next poll takes what it sends from the queue of its Cbox. -/
theorem waiting_pollFrom {r : Subg} (i : ℕ) (hp : QueuesPacked r.aboxInfo) :
    QueuesPacked (r.pollFrom i).aboxInfo ∧ SendsNext (r.pollFrom i) ∧
      ∀ k < r.aboxInfo.cboxOnlineNum, (r.pollFrom i).waiting k = queued r.aboxInfo k := by
  unfold Subg.pollFrom
  split_ifs with hi
  · obtain ⟨hpacked, hself, hother⟩ := getPoolDate_queued hi hp
    have hsame := sameQueues_sendCheckPack (getPoolDate r.aboxInfo i).2.2
      (getPoolDate r.aboxInfo i).1 i (getPoolDate r.aboxInfo i).2.1
    refine ⟨hsame.queuesPacked hpacked, ?_, fun k hk => ?_⟩
    · intro p hp'
      obtain rfl := Option.some.inj hp'
      exact sending_nextPackage (getPoolDate_bound _ _)
    · show (if i = k then readN (getPoolDate r.aboxInfo i).1 (getPoolDate r.aboxInfo i).2.1
        else []) ++ queued _ k = queued r.aboxInfo k
      rw [hsame.queued]
      by_cases hik : i = k
      · subst hik
        rw [if_pos rfl]
        exact hself
      · rw [if_neg hik]
        exact hother k hk (Ne.symm hik)
  · exact ⟨hp, fun p hp' => (by cases hp'), fun k _ => rfl⟩

/-- The poll `q` that follows `p` once `bytes` of it have been answered. -/
structure Follows (p : Poll) (bytes : List Byte) (q : Option Poll) : Prop where
  sending : ∀ q', q = some q' → q'.Sending
  unsent : ∀ k, (if p.cboxIndex = k then bytes else []) ++ unsentTo q k = unsentTo (some p) k

theorem sameQueues_received (s : AboxInformation) (p : Poll) (a : Answer) :
    SameQueues s (received s p a) := by
  obtain heq | ⟨ids, heq⟩ := received_cases s p a
  · rw [heq]
    exact SameQueues.refl s
  · rw [heq]
    exact sameQueues_modifyCbox s _ fun _ => rfl

theorem follows_answered {s : AboxInformation} {p : Poll} {a : Answer} (hp : p.Sending) :
    SameQueues s (answered s p a).1 ∧ Follows p p.payload (answered s p a).2.1 := by
  simp only [answered]
  split_ifs with hend
  · refine ⟨(sameCboxes_setErrTick s _ _ _).queues, fun _ h => (by cases h), fun k => ?_⟩
    show _ ++ [] = if p.cboxIndex = k then p.unsent else []
    rw [List.append_nil, hp.payload_of_end hend.1]
  · refine ⟨(sameCboxes_advance s _).queues, ?_, fun k => ?_⟩
    · intro q' hq
      obtain rfl := Option.some.inj hq
      exact sending_nextPackage (le_trans (Nat.sub_le _ _) hp.fits)
    · show _ ++ (if p.cboxIndex = k then readN (dataLeft p.send p.checkPack1.lenth.toNat)
        (p.sendSize - p.checkPack1.lenth.toNat) else []) = if p.cboxIndex = k then p.unsent else []
      split_ifs
      · unfold Poll.payload Poll.unsent
        rw [← readN_add, hp.lenth, Nat.add_sub_cancel' (min_le_right _ _)]
      · rfl

/-- A fragment that is sent again. -/
theorem follows_unanswered {s : AboxInformation} {p : Poll} {a : Answer} (hp : p.Sending)
    (herr : p.errTimes < 10) :
    SameQueues s (unanswered s p a).1 ∧ Follows p [] (unanswered s p a).2.1 := by
  simp only [unanswered]
  rw [if_neg (by omega)]
  refine ⟨((sameCboxes_txResultFail s _).trans (sameCboxes_txResultData _ _)).queues, ?_,
    fun k => ?_⟩
  · intro q' hq
    obtain rfl := Option.some.inj hq
    exact ⟨hp.fits, hp.lenth, hp.reg⟩
  · show _ ++ (if p.cboxIndex = k then p.unsent else []) = if p.cboxIndex = k then p.unsent else []
    split_ifs <;> rfl

/-- A queue without its last record is shorter. -/
theorem readAll_dropLast_ne {s : AboxInformation} {i : ℕ} (hp : QueuesPacked s)
    (hi : i < s.cboxOnlineNum) (hq : queue (s.cboxInfo i) ≠ []) :
    readAll s.cboxDataPool.used ((queue (s.cboxInfo i)).dropLast.map DataInfo.seg) ≠
      queued s i := by
  intro h
  have hsplit : queued s i =
      readAll s.cboxDataPool.used ((queue (s.cboxInfo i)).dropLast.map DataInfo.seg) ++
        ((queue (s.cboxInfo i)).getLast hq).seg.read s.cboxDataPool.used := by
    rw [← readAll_concat, ← List.map_singleton, ← List.map_append, List.dropLast_append_getLast]
    rfl
  rw [hsplit, List.self_eq_append_right, ← List.length_eq_zero_iff] at h
  have hin := packed_inside hp hi (List.getLast_mem hq)
  rw [Seg.length_read (by rw [length_used]; exact hin)] at h
  exact absurd h (Nat.ne_of_gt hin.1)

/-- What a failed poll has not sent goes back to the head of the list of its
    Cbox, if there is room. -/
theorem requeueSend_queued {s : AboxInformation} {i n : ℕ} (send : List Byte)
    (hp : QueuesPacked s) (hn : n ≤ cboxDataPoolSize) :
    QueuesPacked (requeueSend s i send n) ∧
      (∀ k < s.cboxOnlineNum, k ≠ i → queued (requeueSend s i send n) k = queued s k) ∧
      (i < s.cboxOnlineNum → (queued (requeueSend s i send n) i = readN send n ++ queued s i ↔
        (0 < n → RoomFor s.cboxDataPool n ∧ (queue (s.cboxInfo i)).length < cboxMaxDataList))) := by
  have hsize : cboxDataPoolSize = 5120 := rfl
  have hmod : n % 2 ^ 16 = n := Nat.mod_eq_of_lt (by omega)
  by_cases hroom : RoomFor s.cboxDataPool n
  · have hput := requeueSend_of_roomFor i send (hmod.symm ▸ hroom)
    have hkeep : (if (queue (s.cboxInfo i)).length = cboxMaxDataList then
        (queue (s.cboxInfo i)).dropLast else queue (s.cboxInfo i)).Sublist
          (queue (s.cboxInfo i)) := by
      split_ifs
      · exact List.dropLast_sublist _
      · exact List.Sublist.refl _
    rw [hmod] at hput
    refine ⟨?_, fun k hk hki => hput.queued_other hp hk hki, fun hi => ?_⟩
    · refine hput.queuesPacked (by rw [length_readN]; exact hroom.1) ?_ hkeep hp
      rw [length_readN]
    · have hpos := hroom.1
      rw [Put.queued_first (by rw [length_readN]; exact hput) hkeep hp hi,
        List.append_cancel_left_eq]
      simp only [hpos, hroom, true_implies, true_and]
      split_ifs with hfull
      · refine iff_of_false (readAll_dropLast_ne hp hi ?_) (by omega)
        intro hnil
        rw [hnil] at hfull
        exact absurd hfull (by decide)
      · have hle : (queue (s.cboxInfo i)).length ≤ cboxMaxDataList :=
          (s.cboxInfo i).cboxDataInfo.entry_le
        exact iff_of_true rfl (by omega)
  · rw [requeueSend_of_not (by rw [hmod]; exact hroom)]
    refine ⟨hp, fun k _ _ => rfl, fun _ => ?_⟩
    rw [List.self_eq_append_left, ← List.length_eq_zero_iff, length_readN]
    constructor
    · exact fun h hpos => by omega
    · intro h
      by_contra hne
      exact hroom (h (Nat.pos_of_ne_zero hne)).1

/-- After an answer, or none, the poll goes on or the next one starts. -/
theorem waiting_answer {r : Subg} {p : Poll} {a : Answer}
    (hp : QueuesPacked (rxData r.aboxInfo p a).1)
    (hq : ∀ q, (rxData r.aboxInfo p a).2.1 = some q → q.Sending) :
    QueuesPacked (r.answer p a).aboxInfo ∧ SendsNext (r.answer p a) ∧
      ∀ k < r.aboxInfo.cboxOnlineNum, (r.answer p a).waiting k =
        unsentTo (rxData r.aboxInfo p a).2.1 k ++ queued (rxData r.aboxInfo p a).1 k := by
  have hn := rxData_online r.aboxInfo p a
  obtain ⟨q, hrx, heq⟩ | ⟨hrx, next, hnext, -, -, heq⟩ := answer_cases r p a
  · rw [heq, hrx]
    exact ⟨hp, fun q' hq' => hq q' (hrx.trans hq'), fun k _ => rfl⟩
  · rw [← hnext] at hp hn ⊢
    rw [heq, hrx]
    obtain ⟨h1, h2, h3⟩ := waiting_pollFrom (p.cboxIndex + 1) hp
    exact ⟨h1, h2, fun k hk => h3 k (by rw [← hn] at hk; exact hk)⟩

theorem ackedBytes_of_missing {r : Subg} {a : Answer} (h : a.Missing) (k : ℕ) :
    ackedBytes r k (.rxData a) = [] := by
  unfold ackedBytes
  simp only
  split
  · rename_i p subgRecv _ hrecv
    have hret : (recvPackage r.aboxInfo p subgRecv).1 ≠ .rtEok := by
      rw [Ne, recvPackage_ret, not_or]
      exact h subgRecv hrecv
    rw [if_neg fun hand => hret hand.2]
  · rfl

theorem ackedBytes_of_answer {r : Subg} {p : Poll} {a : Answer} (hpoll : r.poll = some p)
    (h : ¬ a.Missing) (k : ℕ) :
    ackedBytes r k (.rxData a) = if p.cboxIndex = k then p.payload else [] := by
  unfold Answer.Missing at h
  push Not at h
  obtain ⟨subgRecv, hrecv, hcmd⟩ := h
  have hret : (recvPackage r.aboxInfo p subgRecv).1 = .rtEok := by
    rw [recvPackage_ret]
    by_cases h2 : (CheckPackage2.ofBytes subgRecv).cmd = checkCmd2
    · exact Or.inl h2
    · exact Or.inr (hcmd h2)
  unfold ackedBytes
  simp only [hpoll, hrecv, hret, and_true]

/-- A poll that fails conserves its bytes if what it has not sent finds room. -/
theorem conserves_failed {r : Subg} {p : Poll} {a : Answer} (hpoll : r.poll = some p)
    (hp : QueuesPacked r.aboxInfo) (hsend : p.Sending) (hmiss : a.Missing)
    (herr : 10 ≤ p.errTimes) :
    QueuesPacked (r.answer p a).aboxInfo ∧ SendsNext (r.answer p a) ∧
      ∀ k < r.aboxInfo.cboxOnlineNum,
        Conserves r (r.answer p a) k k (.rxData a) ↔ Lossless r k (.rxData a) := by
  set q := p.checked a.linked with hq
  set s := saveCboxRecv (setErrTick (txResultFail r.aboxInfo p.cboxIndex) p.cboxIndex .rtError
    a.tick) p.cboxIndex q.cboxRecv q.cboxRecvSize with hs
  have hsame : SameQueues r.aboxInfo s :=
    ((sameCboxes_txResultFail r.aboxInfo _).trans (sameCboxes_setErrTick _ _ _ _)).queues.trans
      (saveCboxRecv_sameQueues _ _ _ _)
  have hrx : rxData r.aboxInfo p a = (requeueSend s p.cboxIndex p.send p.sendSize, none,
      (checkDataFromSubg a.linked p.cboxRecv p.cboxRecvSize).sent) :=
    rxData_of_failed r.aboxInfo p hmiss herr
  obtain ⟨hpacked, hother, hself⟩ := requeueSend_queued (i := p.cboxIndex) (n := p.sendSize)
    p.send (hsame.queuesPacked hp) hsend.fits
  obtain ⟨h1, h2, h3⟩ := waiting_answer (r := r) (p := p) (a := a) (by rw [hrx]; exact hpacked)
    (fun q' hq' => by rw [hrx] at hq'; cases hq')
  refine ⟨h1, h2, fun k hk => ?_⟩
  unfold Conserves
  rw [ackedBytes_of_missing hmiss, h3 k hk, hrx]
  show queued _ k = (unsentTo r.poll k ++ queued r.aboxInfo k) ++ [] ↔ _
  rw [List.append_nil, hpoll]
  by_cases hki : p.cboxIndex = k
  · subst hki
    have hks : p.cboxIndex < s.cboxOnlineNum := by rw [hsame.online]; exact hk
    show _ = (if p.cboxIndex = p.cboxIndex then p.unsent else []) ++ _ ↔ _
    rw [if_pos rfl, ← hsame.queued]
    refine (hself hks).trans ?_
    rw [hsame.pool, hsame.list]
    constructor
    · intro h p' hp' _ _ _ hpos
      rw [hpoll] at hp'
      obtain rfl := Option.some.inj hp'
      exact h hpos
    · exact fun h hpos => h p hpoll rfl hmiss herr hpos
  · show _ = (if p.cboxIndex = k then p.unsent else []) ++ _ ↔ _
    rw [if_neg hki, List.nil_append, hother k (by rw [hsame.online]; exact hk) (Ne.symm hki),
      hsame.queued]
    refine iff_of_true rfl fun p' hp' hk' => ?_
    rw [hpoll] at hp'
    obtain rfl := Option.some.inj hp'
    exact absurd hk' hki

/-- What an answer, or a wait that is not the last, changes. -/
theorem follows_rxData {r : Subg} {p : Poll} {a : Answer} (hpoll : r.poll = some p)
    (hsend : p.Sending) (hgoes : ¬ (a.Missing ∧ 10 ≤ p.errTimes)) :
    SameQueues r.aboxInfo (rxData r.aboxInfo p a).1 ∧ ∃ bytes,
      (∀ k, ackedBytes r k (.rxData a) = if p.cboxIndex = k then bytes else []) ∧
        Follows p bytes (rxData r.aboxInfo p a).2.1 := by
  by_cases hmiss : a.Missing
  · rw [rxData_of_missing _ _ hmiss]
    obtain ⟨hsame, hfollows⟩ := follows_unanswered (s := r.aboxInfo) (a := a) hsend
      (by by_contra hle; exact hgoes ⟨hmiss, Nat.le_of_not_lt hle⟩)
    refine ⟨hsame, [], fun k => ?_, hfollows⟩
    rw [ackedBytes_of_missing hmiss, ite_self]
  · obtain ⟨cboxRecv, n, hrx, -⟩ := rxData_of_answer r.aboxInfo p hmiss
    rw [hrx]
    obtain ⟨hsame, hfollows⟩ := follows_answered (s := received r.aboxInfo p a) (a := a)
      (p := { p with cboxRecv := cboxRecv, cboxRecvSize := n })
      ⟨hsend.fits, hsend.lenth, hsend.reg⟩
    exact ⟨(sameQueues_received _ _ _).trans hsame, p.payload,
      fun k => ackedBytes_of_answer hpoll hmiss k, ⟨hfollows.sending, hfollows.unsent⟩⟩

theorem conserves_rxData {r : Subg} {p : Poll} {a : Answer} (hpoll : r.poll = some p)
    (hp : QueuesPacked r.aboxInfo) (hsend : p.Sending) :
    QueuesPacked (r.answer p a).aboxInfo ∧ SendsNext (r.answer p a) ∧
      ∀ k < r.aboxInfo.cboxOnlineNum,
        Conserves r (r.answer p a) k k (.rxData a) ↔ Lossless r k (.rxData a) := by
  by_cases hfail : a.Missing ∧ 10 ≤ p.errTimes
  · exact conserves_failed hpoll hp hsend hfail.1 hfail.2
  · obtain ⟨hsame, bytes, hacked, hfollows⟩ := follows_rxData hpoll hsend hfail
    obtain ⟨h1, h2, h3⟩ := waiting_answer (hsame.queuesPacked hp) hfollows.sending
    refine ⟨h1, h2, fun k hk => iff_of_true ?_ fun p' hp' _ hmiss herr => ?_⟩
    · unfold Conserves
      rw [hacked, h3 k hk, hsame.queued, ← List.append_assoc, hfollows.unsent]
      show _ = (unsentTo r.poll k ++ queued r.aboxInfo k) ++ []
      rw [List.append_nil, hpoll]
    · rw [hpoll] at hp'
      obtain rfl := Option.some.inj hp'
      exact absurd ⟨hmiss, herr⟩ hfail

/-! ## Events -/

theorem recvTestPack2_queued {s : AboxInformation} (cmd : BitVec 6)
    (p_dev_id : Fin devidTypeNum → BitVec 32) (hp : QueuesPacked s) :
    QueuesPacked (recvTestPack2 s cmd p_dev_id).2 ∧
      s.cboxOnlineNum ≤ (recvTestPack2 s cmd p_dev_id).2.cboxOnlineNum ∧
      ∀ k < s.cboxOnlineNum, queued (recvTestPack2 s cmd p_dev_id).2 k = queued s k := by
  unfold recvTestPack2
  split_ifs
  · obtain ⟨hpacked, hqueued⟩ := addCbox_queued p_dev_id hp
    refine ⟨hpacked, ?_, hqueued⟩
    rcases addCbox_cases s p_dev_id with heq | ⟨hn, -⟩
    · rw [heq]
    · omega
  · exact ⟨hp, le_rfl, fun k _ => rfl⟩

/-- No event makes records overlap. -/
theorem step_queuesPacked {r r' : Subg} {e : Event} (h : r.Step e r')
    (hr : QueuesPacked r.aboxInfo ∧ SendsNext r) : QueuesPacked r'.aboxInfo ∧ SendsNext r' := by
  obtain ⟨hp, hsend⟩ := hr
  cases h.effect with
  | recvServerData recv => exact ⟨recvServerData_queuesPacked recv hp, hsend⟩
  | traverseCbox =>
    obtain ⟨h1, h2, -⟩ := waiting_pollFrom 0 hp
    exact ⟨h1, h2⟩
  | rxData a hpoll =>
    obtain ⟨h1, h2, -⟩ := conserves_rxData (a := a) hpoll hp (hsend _ hpoll)
    exact ⟨h1, h2⟩
  | recvTestPack2 cmd p_dev_id => exact ⟨(recvTestPack2_queued cmd p_dev_id hp).1, hsend⟩
  | removeCbox i _ hs => exact ⟨(removeCbox_queued hs hp).1, hsend⟩
  | cleanCbox hs => exact ⟨cleanFrom_queuesPacked hs hp, hsend⟩
  | cleanNext _ hs => exact ⟨cleanFrom_queuesPacked hs hp, hsend⟩

/-- Where nothing is answered or accepted, the waiting bytes are to stay. -/
theorem conserves_of_eq {r r' : Subg} {k k' : ℕ} {e : Event} (hacked : ackedBytes r k e = [])
    (haccepted : acceptedBytes r k e = []) (h : r'.waiting k' = r.waiting k) :
    Conserves r r' k k' e := by
  unfold Conserves
  rw [hacked, haccepted, h, List.nil_append, List.append_nil]

theorem waiting_of_idle {r : Subg} (h : r.poll = none) (k : ℕ) :
    r.waiting k = queued r.aboxInfo k := by
  unfold Subg.waiting
  rw [h]
  rfl

/-- An event conserves the bytes of a Cbox that stays online exactly if it is
    lossless. -/
theorem step_conserves_iff {r r' : Subg} {e : Event} {k : ℕ} (h : r.Step e r')
    (hkeeps : e.keeps k = true) (hk : k < r.aboxInfo.cboxOnlineNum)
    (hp : QueuesPacked r.aboxInfo) (hsend : SendsNext r) :
    slotAfterEvent k e < r'.aboxInfo.cboxOnlineNum ∧
      (Conserves r r' k (slotAfterEvent k e) e ↔ Lossless r k e) := by
  cases h.effect with
  | recvServerData recv =>
    refine ⟨?_, conserves_recvServerData hk hp rfl rfl⟩
    rw [(sameDevids_recvServerData r.aboxInfo recv).online]
    exact hk
  | traverseCbox hidle =>
    refine ⟨by rw [(sameDevids_pollFrom r 0).online]; exact hk, iff_of_true ?_ trivial⟩
    refine conserves_of_eq rfl rfl ?_
    rw [waiting_of_idle hidle]
    exact (waiting_pollFrom 0 hp).2.2 k hk
  | @rxData p a hpoll =>
    refine ⟨?_, (conserves_rxData hpoll hp (hsend p hpoll)).2.2 k hk⟩
    rw [(sameDevids_answer r p a).online, received_online]
    exact hk
  | recvTestPack2 cmd p_dev_id =>
    obtain ⟨-, hn, hqueued⟩ := recvTestPack2_queued cmd p_dev_id hp
    refine ⟨lt_of_lt_of_le hk hn, iff_of_true ?_ trivial⟩
    refine conserves_of_eq rfl rfl ?_
    show unsentTo r.poll k ++ queued (recvTestPack2 r.aboxInfo cmd p_dev_id).2 k =
      unsentTo r.poll k ++ queued r.aboxInfo k
    rw [hqueued k hk]
  | @removeCbox _ s i hidle hs =>
    have hki : k ≠ i := by
      rintro rfl
      simp [Event.keeps] at hkeeps
    obtain ⟨hlt, hqueued⟩ := (removeCbox_queued hs hp).2 k hk hki
    refine ⟨hlt, iff_of_true ?_ trivial⟩
    refine conserves_of_eq rfl rfl ?_
    rw [waiting_of_idle hidle, waiting_of_idle (r := { r with aboxInfo := s }) hidle]
    exact hqueued
  | cleanCbox => simp [Event.keeps] at hkeeps
  | cleanNext => simp [Event.keeps] at hkeeps

/-! ## Runs -/

/-- The Cbox is online, and records do not overlap. -/
structure CboxView.Online (v : CboxView) : Prop where
  online : v.cboxIndex < v.subg.aboxInfo.cboxOnlineNum
  packed : QueuesPacked v.subg.aboxInfo
  sends : SendsNext v.subg

/-- The step of a view, with what it does to the waiting bytes. -/
theorem CboxView.step_eq {v v' : CboxView} {e : Event} (h : v.Step e v') :
    e.keeps v.cboxIndex = true ∧ v.subg.Step e v'.subg ∧
      v'.cboxIndex = slotAfterEvent v.cboxIndex e ∧
      v'.acked = v.acked ++ ackedBytes v.subg v.cboxIndex e ∧
      v'.accepted = v.accepted ++ acceptedBytes v.subg v.cboxIndex e := by
  obtain ⟨fuel, h⟩ := h
  unfold CboxView.step at h
  rw [Option.ite_none_right_eq_some] at h
  obtain ⟨hkeeps, h⟩ := h
  obtain ⟨r, hr, rfl⟩ := Option.map_eq_some_iff.1 h
  exact ⟨hkeeps, ⟨fuel, hr⟩, rfl, rfl, rfl⟩

theorem CboxView.Online.step {v v' : CboxView} {e : Event} (hv : v.Online) (h : v.Step e v') :
    v'.Online := by
  obtain ⟨hkeeps, hstep, hslot, -, -⟩ := CboxView.step_eq h
  obtain ⟨hpacked, hsends⟩ := step_queuesPacked hstep ⟨hv.packed, hv.sends⟩
  refine ⟨?_, hpacked, hsends⟩
  rw [hslot]
  exact (step_conserves_iff hstep hkeeps hv.online hv.packed hv.sends).1

theorem fifo_step_iff {v v' : CboxView} {e : Event} (hv : v.Online) (hfifo : Fifo v)
    (h : v.Step e v') : Fifo v' ↔ Lossless v.subg v.cboxIndex e := by
  obtain ⟨hkeeps, hstep, hslot, hacked, haccepted⟩ := CboxView.step_eq h
  refine Iff.trans ?_ (step_conserves_iff hstep hkeeps hv.online hv.packed hv.sends).2
  unfold Fifo at hfifo ⊢
  unfold Conserves
  rw [hslot, hacked, haccepted, ← hfifo, List.append_assoc, List.append_assoc,
    List.append_cancel_left_eq]

/-- The Cbox has just registered, in a run in which no frame overran `getData`. -/
structure Registered (v : CboxView) : Prop where
  run : ∃ pre cmd p_dev_id, Path Subg.Step Subg.init pre ∧ AllSteps FitsGetData Subg.init pre ∧
    (last Subg.init pre).Step (.recvTestPack2 cmd p_dev_id) v.subg ∧
    v.cboxIndex = (last Subg.init pre).aboxInfo.cboxOnlineNum ∧
    v.cboxIndex < v.subg.aboxInfo.cboxOnlineNum
  acked : v.acked = []
  accepted : v.accepted = []

theorem Registered.online {v : CboxView} (h : Registered v) : v.Online := by
  obtain ⟨pre, cmd, p_dev_id, hpre, -, hstep, -, hlt⟩ := h.run
  have hr := (hpre.always (fun r => QueuesPacked r.aboxInfo ∧ SendsNext r)
    (fun hr hs => step_queuesPacked hs hr)
    ⟨queuesPacked_init, fun p hp => (by cases hp)⟩).last
  obtain ⟨hpacked, hsends⟩ := step_queuesPacked hstep hr
  exact ⟨hlt, hpacked, hsends⟩

/-- A Cbox that has just registered waits for nothing. -/
theorem Registered.fifo {v : CboxView} (h : Registered v) : Fifo v := by
  obtain ⟨pre, cmd, p_dev_id, -, -, ⟨fuel, hstep⟩, hslot, hlt⟩ := h.run
  simp only [Subg.step, Option.ite_none_left_eq_some, Option.some.injEq] at hstep
  obtain ⟨hidle, hsubg⟩ := hstep
  have hidle' : v.subg.poll = none := by
    rw [← hsubg]
    simpa using hidle
  have hnil : queue (v.subg.aboxInfo.cboxInfo v.cboxIndex) = [] := by
    rw [← hsubg] at hlt ⊢
    rw [hslot] at hlt ⊢
    unfold recvTestPack2 at hlt ⊢
    split_ifs at hlt ⊢ with hcmd
    · rcases addCbox_cases (last Subg.init pre).aboxInfo p_dev_id with
        heq | ⟨-, -, -, -, hnew, -, -⟩
      · rw [heq] at hlt
        exact absurd hlt (lt_irrefl _)
      · exact hnew
    · exact absurd hlt (lt_irrefl _)
  unfold Fifo
  rw [h.acked, h.accepted, waiting_of_idle hidle', queued, hnil]
  rfl

/-- What every event of a run must meet: no overrun, and nothing lost. -/
def FifoOk (v : CboxView) (e : Event) : Prop :=
  FitsGetData v.subg e ∧ Lossless v.subg v.cboxIndex e

/-- From the registration of a Cbox on, as long as it stays online: no frame
    overruns `getData` and the frames accepted for the Cbox are delivered in order
    exactly when every event meets `FifoOk`. -/
theorem fifo_iff {v : CboxView} {tr : List (Event × CboxView)} (hv : Registered v)
    (h : Path CboxView.Step v tr) :
    AllSteps (fun v e => FitsGetData v.subg e) v tr ∧ Always Fifo v tr ↔
      AllSteps FifoOk v tr := by
  have hfifo : Always Fifo v tr ↔ AllSteps (fun v e => Lossless v.subg v.cboxIndex e) v tr :=
    @Path.always_iff _ _ CboxView.Step CboxView.Online Fifo _ (fun hv hs => hv.step hs)
      (fun hv hfifo hs => fifo_step_iff hv hfifo hs) v tr h hv.online hv.fifo
  rw [hfifo]
  exact allSteps_and.symm

/-- A Cbox with the id 1, just registered. -/
def cbox1 : CboxView where
  subg := { Subg.init with aboxInfo := (addCbox initAboxInformation fun _ => 1).2 }
  cboxIndex := 0
  acked := []
  accepted := []

theorem registered_cbox1 : Registered cbox1 where
  run := ⟨[], testCmd2, fun _ => 1, .nil _, trivial, ⟨0, rfl⟩, rfl, by decide⟩
  acked := rfl
  accepted := rfl

/-- A frame arrives for the Cbox, is sent and answered. -/
def frameEvents : List Event := [.recvServerData frameTo1, .traverseCbox, .rxData emptyAnswer]

theorem fifo_one_frame : ∃ tr, exec (CboxView.step 0) cbox1 frameEvents = some tr ∧
    Always Fifo cbox1 tr ∧ (last cbox1 tr).acked = frameTo1 := by
  refine ⟨_, rfl, ?_, by decide +kernel⟩
  have hpath := exec_path (fun h => (⟨0, h⟩ : CboxView.Step _ _ _))
    (show exec (CboxView.step 0) cbox1 frameEvents = some _ from rfl)
  refine ((fifo_iff registered_cbox1 hpath).2 ⟨⟨?_, ?_⟩, ⟨trivial, trivial⟩, ⟨trivial, ?_⟩,
    trivial⟩).2
  · exact fun _ => (by decide +kernel)
  · exact fun _ _ _ => (by decide +kernel)
  · intro p _ _ hmiss
    exact absurd rfl (hmiss _ rfl).1

/-- Eleven frames arrive for the Cbox. -/
def elevenFrames : List Event := List.replicate 11 (.recvServerData frameTo1)

/-- All are accepted, but the list takes ten. -/
theorem frame_to_full_list : ∃ tr, exec (CboxView.step 0) cbox1 elevenFrames = some tr ∧
    Registered cbox1 ∧ Path CboxView.Step cbox1 tr ∧ ¬ Always Fifo cbox1 tr := by
  have hsome : (exec (CboxView.step 0) cbox1 elevenFrames).isSome = true := by decide +kernel
  obtain ⟨tr, htr⟩ := Option.isSome_iff_exists.1 hsome
  have hend : ((exec (CboxView.step 0) cbox1 elevenFrames).map fun tr =>
      (((last cbox1 tr).acked ++ (last cbox1 tr).subg.waiting (last cbox1 tr).cboxIndex).length,
        (last cbox1 tr).accepted.length)) = some (100, 110) := by
    decide +kernel
  rw [htr, Option.map_some] at hend
  obtain ⟨hleft, hright⟩ := Prod.mk.inj (Option.some.inj hend)
  refine ⟨tr, htr, registered_cbox1, exec_path (fun h => ⟨0, h⟩) htr, fun halways => ?_⟩
  have hfifo : Fifo _ := halways.last
  unfold Fifo at hfifo
  rw [hfifo, hright] at hleft
  exact absurd hleft (by decide)

end Abox.Radio
