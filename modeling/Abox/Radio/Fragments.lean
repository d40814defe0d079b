import Abox.Radio.Fifo

/-!
# The fragments of a poll

A call of `sendCheckPack` (`Abox/src/sub_G_A.c` lines 528–735) as it is seen on
the radio: the packages it hands to `tx_data`, in order, each with whether the
Cbox has answered it, and what is left in `send` when the call ends.

* `rxData_sends`: what one answer, or its absence, makes the poll send next.
* `fragmentation`: whatever the answers, the fragments are the block of data cut
  into pieces of 57 bytes, and what was not answered is left in `send`.
-/

namespace Abox.Radio

/-! ## A call -/

/-- A `CHECK_CMD1` package, and whether it has been answered. -/
structure Fragment where
  checkPack1 : CheckPackage1
  data : List Byte
  answered : Bool

/-- The bytes on the radio. -/
def Fragment.bytes (x : Fragment) : List Byte := x.checkPack1.bytes ++ x.data

/-- How far a call is: it waits for an answer, or it has ended. -/
inductive PollEnd
  | waiting (send : List Byte) (sendSize : ℕ)
  | success
  | failed (send : List Byte) (sendSize : ℕ)

/-- The first `sendSize` bytes of `send`, and nothing after a success. -/
def PollEnd.unsent : PollEnd → List Byte
  | .waiting send sendSize => send.take sendSize
  | .success => []
  | .failed send sendSize => send.take sendSize

/-- `ret` is `RT_EOK` (lines 603–637): the package that came is an answer. -/
def Answer.answers (a : Answer) : Bool :=
  a.subgRecv.any fun subgRecv =>
    (CheckPackage2.ofBytes subgRecv).cmd = checkCmd2 ∨
      (CheckPackage2.ofBytes subgRecv).cmd = checkCmd3

/-- What the poll hands to `tx_data` before it waits. -/
def Poll.fragment (p : Poll) (answered : Bool) : Fragment := ⟨p.checkPack1, p.payload, answered⟩

/-- The fragments of a poll that gets the given answers, and how far it is then. -/
def fragments (s : AboxInformation) (p : Poll) : List Answer → List Fragment × PollEnd
  | [] => ([p.fragment false], .waiting p.send p.sendSize)
  | a :: as =>
    match rxData s p a with
    | (s, some q, _) =>
      (p.fragment a.answers :: (fragments s q as).1, (fragments s q as).2)
    | (_, none, _) =>
      ([p.fragment a.answers], if a.answers then .success else .failed p.send p.sendSize)

/-- The data of the fragments that were answered. -/
def answeredData (l : List Fragment) : List Byte :=
  (l.filter Fragment.answered).flatMap Fragment.data

/-- The fragments `l` are the pieces of `block`, numbered from `num + 1` on; a
    fragment is sent again until it is answered. -/
structure Fragmented (block : List Byte) (num : Byte) (l : List Fragment) (e : PollEnd) :
    Prop where
  size : ∀ x ∈ l, x.checkPack1.cmd = checkCmd1 ∧ x.checkPack1.lenth.toNat = x.data.length ∧
    x.data.length ≤ 57
  keep : ∀ pre x post, l = pre ++ x :: post → ∃ rest,
    block = answeredData pre ++ x.data ++ rest ∧
      (x.checkPack1.reg = sendKeep ↔ rest ≠ []) ∧ (x.checkPack1.reg = sendEnd ↔ rest = [])
  first : ∃ x post, l = x :: post ∧ x.checkPack1.aboxPackNum = num + 1
  repeated : ∀ pre x y post, l = pre ++ x :: y :: post → x.answered = false → y.bytes = x.bytes
  numbered : ∀ pre x y post, l = pre ++ x :: y :: post → x.answered = true →
    y.checkPack1.aboxPackNum = x.checkPack1.aboxPackNum + 1
  delivered : answeredData l ++ e.unsent = block

/-! ## One answer -/

theorem answers_eq_false_iff (a : Answer) : a.answers = false ↔ a.Missing := by
  unfold Answer.answers Answer.Missing
  cases a.subgRecv with
  | none => simp
  | some subgRecv => simp

/-- The number of the fragment under way is the one the Cbox has in the table. -/
def Numbered (s : AboxInformation) (p : Poll) : Prop :=
  (s.cboxInfo p.cboxIndex).packSendInfo.aboxPackNum = p.checkPack1.aboxPackNum

/-- What a poll needs to go on. -/
structure Poll.Ready (s : AboxInformation) (p : Poll) : Prop where
  sending : p.Sending
  cmd : p.checkPack1.cmd = checkCmd1
  room : p.sendSize ≤ p.send.length
  number : Numbered s p

/-- What one answer leads to: the fragment is sent again, or the next one, or the
    poll ends. -/
inductive Sends (s : AboxInformation) (p : Poll) (a : Answer) :
    AboxInformation → Option Poll → Prop
  | again {t : AboxInformation} {q : Poll} : a.answers = false →
      q.checkPack1 = p.checkPack1 → q.send = p.send → q.sendSize = p.sendSize →
      Numbered t q → Sends s p a t (some q)
  | failed {t : AboxInformation} : a.answers = false → Sends s p a t none
  | next {t : AboxInformation} {q : Poll} : a.answers = true →
      q.checkPack1.aboxPackNum = p.checkPack1.aboxPackNum + 1 →
      p.payload ++ q.unsent = p.unsent → q.Ready t → Sends s p a t (some q)
  | success {t : AboxInformation} : a.answers = true → p.checkPack1.reg = sendEnd →
      Sends s p a t none

/-- A change of one slot that keeps its pack number. -/
theorem numbered_modifyCbox {s : AboxInformation} {p : Poll} (h : Numbered s p) (i : ℕ)
    {f : CboxInformation → CboxInformation} (hf : ∀ c, (f c).packSendInfo = c.packSendInfo) :
    Numbered (s.modifyCbox i f) p := by
  unfold Numbered
  rw [AboxInformation.modifyCbox_cboxInfo]
  split_ifs
  · rw [hf]
    exact h
  · exact h

theorem numbered_txResultData {s : AboxInformation} {p : Poll} (h : Numbered s p) (i : ℕ) :
    Numbered (txResultData s i) p := by
  have h' : Numbered { s with packageSendNum := s.packageSendNum + 1 } p := h
  exact numbered_modifyCbox h' i fun _ => rfl

theorem numbered_received {s : AboxInformation} {p : Poll} (h : Numbered s p) (a : Answer) :
    Numbered (received s p a) p := by
  obtain heq | ⟨ids, heq⟩ := received_cases s p a
  · rw [heq]
    exact h
  · rw [heq]
    exact numbered_modifyCbox h _ fun _ => rfl

/-- The next fragment has the next number, in the table too. -/
theorem advance_number {s : AboxInformation} {p : Poll} (h : Numbered s p) :
    Numbered (advance s p).1 (advance s p).2 ∧
      (advance s p).2.checkPack1.aboxPackNum = p.checkPack1.aboxPackNum + 1 := by
  have hnum : ((nextPackNum s p.cboxIndex).cboxInfo p.cboxIndex).packSendInfo.aboxPackNum =
      p.checkPack1.aboxPackNum + 1 := by
    unfold nextPackNum
    rw [AboxInformation.modifyCbox_cboxInfo, if_pos rfl]
    exact congrArg (· + 1) h
  refine ⟨?_, hnum⟩
  have hself : Numbered (nextPackNum s p.cboxIndex) (advance s p).2 := rfl
  exact numbered_txResultData hself p.cboxIndex

/-- The next fragment is cut from what is left. -/
theorem advance_ready {s : AboxInformation} {p : Poll} (h : p.Ready s) :
    (advance s p).2.Ready (advance s p).1 ∧ p.payload ++ (advance s p).2.unsent = p.unsent := by
  have hle : p.checkPack1.lenth.toNat ≤ p.sendSize := by
    rw [h.sending.lenth]
    exact min_le_right ..
  refine ⟨⟨sending_nextPackage (le_trans (Nat.sub_le _ _) h.sending.fits), h.cmd, ?_,
    (advance_number h.number).1⟩, ?_⟩
  · show p.sendSize - p.checkPack1.lenth.toNat ≤ (dataLeft p.send _).length
    rw [length_dataLeft]
    exact le_trans (Nat.sub_le _ _) h.room
  · show readN p.send _ ++ readN (dataLeft p.send _) _ = readN p.send p.sendSize
    rw [← readN_add]
    congr 1
    exact Nat.add_sub_cancel' hle

theorem rxData_sends {s : AboxInformation} {p : Poll} (h : p.Ready s) (a : Answer) :
    Sends s p a (rxData s p a).1 (rxData s p a).2.1 := by
  by_cases hmiss : a.Missing
  · have hno : a.answers = false := (answers_eq_false_iff a).2 hmiss
    rw [rxData_of_missing s p hmiss]
    simp only [unanswered]
    split_ifs
    · exact .failed hno
    · refine .again hno rfl rfl rfl ?_
      have hfail : Numbered (txResultFail s p.cboxIndex) p :=
        numbered_modifyCbox h.number _ fun _ => rfl
      exact numbered_txResultData hfail p.cboxIndex
  · have hyes : a.answers = true := by
      rw [← Bool.not_eq_false, answers_eq_false_iff]
      exact hmiss
    obtain ⟨cboxRecv, n, heq, -⟩ := rxData_of_answer s p hmiss
    rw [heq]
    simp only [answered]
    split_ifs with hend
    · exact .success hyes hend.1
    · let q : Poll := ({ p with cboxRecv := cboxRecv, cboxRecvSize := n } : Poll).checked a.linked
      have hq : q.Ready (received s p a) :=
        ⟨⟨h.sending.fits, h.sending.lenth, h.sending.reg⟩, h.cmd, h.room,
          numbered_received h.number a⟩
      obtain ⟨hready, hunsent⟩ := advance_ready hq
      exact .next hyes (advance_number hq.number).2 hunsent hready

/-! ## The whole call -/

theorem unsent_eq_take {p : Poll} (h : p.sendSize ≤ p.send.length) :
    p.unsent = p.send.take p.sendSize := readN_of_le h

theorem answeredData_cons (x : Fragment) (l : List Fragment) :
    answeredData (x :: l) = (if x.answered then x.data else []) ++ answeredData l := by
  unfold answeredData
  rw [List.filter_cons]
  split_ifs <;> rfl

/-- A fragment of a poll that is ready, and what is left behind it. -/
theorem Poll.Ready.fragment {s : AboxInformation} {p : Poll} (h : p.Ready s) (b : Bool) :
    ((p.fragment b).checkPack1.cmd = checkCmd1 ∧
      (p.fragment b).checkPack1.lenth.toNat = (p.fragment b).data.length ∧
      (p.fragment b).data.length ≤ 57) ∧
    ∃ rest, p.unsent = (p.fragment b).data ++ rest ∧
      ((p.fragment b).checkPack1.reg = sendKeep ↔ rest ≠ []) ∧
      ((p.fragment b).checkPack1.reg = sendEnd ↔ rest = []) := by
  have hdata : (p.fragment b).data.length = p.checkPack1.lenth.toNat := length_readN ..
  have hlenth := h.sending.lenth
  have hmax : dataLengthMax = 57 := rfl
  refine ⟨⟨h.cmd, hdata.symm, by omega⟩, ?_⟩
  have hle : p.checkPack1.lenth.toNat ≤ p.sendSize := by omega
  refine ⟨readN (dataLeft p.send p.checkPack1.lenth.toNat)
    (p.sendSize - p.checkPack1.lenth.toNat), ?_, ?_⟩
  · show readN p.send p.sendSize = readN p.send _ ++ _
    rw [← readN_add, Nat.add_sub_cancel' hle]
  · have hrest : readN (dataLeft p.send p.checkPack1.lenth.toNat)
        (p.sendSize - p.checkPack1.lenth.toNat) = [] ↔ p.sendSize ≤ dataLengthMax := by
      rw [← List.length_eq_zero_iff, length_readN]
      omega
    have hreg : (p.fragment b).checkPack1.reg = sendEnd ↔ p.sendSize ≤ dataLengthMax :=
      h.sending.reg
    have hkeep : (p.fragment b).checkPack1.reg = sendKeep ↔
        (p.fragment b).checkPack1.reg ≠ sendEnd := by
      generalize (p.fragment b).checkPack1.reg = reg
      revert reg
      decide
    rw [hkeep, ne_eq, hreg, ne_eq, hrest]
    exact ⟨Iff.rfl, Iff.rfl⟩

theorem fragments_head (s : AboxInformation) (p : Poll) (answers : List Answer) :
    ∃ b post, (fragments s p answers).1 = p.fragment b :: post := by
  cases answers with
  | nil => exact ⟨false, [], rfl⟩
  | cons a as =>
    unfold fragments
    rcases rxData s p a with ⟨t, - | q, sent⟩
    · exact ⟨a.answers, [], rfl⟩
    · exact ⟨a.answers, _, rfl⟩

/-- A call that hands over one fragment. -/
theorem fragmented_singleton {block : List Byte} {x : Fragment} {e : PollEnd}
    (hsize : x.checkPack1.cmd = checkCmd1 ∧ x.checkPack1.lenth.toNat = x.data.length ∧
      x.data.length ≤ 57)
    (hkeep : ∃ rest, block = x.data ++ rest ∧ (x.checkPack1.reg = sendKeep ↔ rest ≠ []) ∧
      (x.checkPack1.reg = sendEnd ↔ rest = []))
    (hend : (if x.answered then x.data else []) ++ e.unsent = block) :
    Fragmented block (x.checkPack1.aboxPackNum - 1) [x] e where
  size y hy := by
    rw [List.mem_singleton.1 hy]
    exact hsize
  keep pre y post h := by
    obtain ⟨rfl, rfl, rfl⟩ : pre = [] ∧ y = x ∧ post = [] := by
      cases pre with
      | nil => simpa [eq_comm] using h
      | cons z pre => simp at h
    exact hkeep
  first := ⟨x, [], rfl, by rw [BitVec.sub_add_cancel]⟩
  repeated pre y z post h := by
    have := congrArg List.length h
    simp at this
    omega
  numbered pre y z post h := by
    have := congrArg List.length h
    simp at this
    omega
  delivered := by
    rw [answeredData_cons]
    show (if x.answered then x.data else []) ++ [] ++ e.unsent = block
    rw [List.append_nil]
    exact hend

/-- A fragment before those of a call. -/
theorem Fragmented.cons {block block' : List Byte} {num : Byte} {x y : Fragment}
    {l : List Fragment} {e : PollEnd} (h : Fragmented block' num (y :: l) e)
    (hsize : x.checkPack1.cmd = checkCmd1 ∧ x.checkPack1.lenth.toNat = x.data.length ∧
      x.data.length ≤ 57)
    (hkeep : ∃ rest, block = x.data ++ rest ∧ (x.checkPack1.reg = sendKeep ↔ rest ≠ []) ∧
      (x.checkPack1.reg = sendEnd ↔ rest = []))
    (hblock : (if x.answered then x.data else []) ++ block' = block)
    (hagain : x.answered = false → y.bytes = x.bytes)
    (hnext : x.answered = true →
      y.checkPack1.aboxPackNum = x.checkPack1.aboxPackNum + 1) :
    Fragmented block (x.checkPack1.aboxPackNum - 1) (x :: y :: l) e where
  size z hz := by
    rcases List.mem_cons.1 hz with rfl | hz
    · exact hsize
    · exact h.size z hz
  keep pre z post heq := by
    cases pre with
    | nil =>
      obtain ⟨rfl, -⟩ := List.cons.inj heq
      exact hkeep
    | cons w pre =>
      obtain ⟨rfl, htail⟩ := List.cons.inj heq
      obtain ⟨rest, hrest, hreg⟩ := h.keep pre z post htail
      refine ⟨rest, ?_, hreg⟩
      rw [answeredData_cons, ← hblock, hrest, List.append_assoc, List.append_assoc,
        List.append_assoc]
  first := ⟨x, _, rfl, by rw [BitVec.sub_add_cancel]⟩
  repeated pre z w post heq := by
    cases pre with
    | nil =>
      obtain ⟨rfl, htail⟩ := List.cons.inj heq
      obtain ⟨rfl, -⟩ := List.cons.inj htail
      exact hagain
    | cons v pre => exact h.repeated pre z w post (List.cons.inj heq).2
  numbered pre z w post heq := by
    cases pre with
    | nil =>
      obtain ⟨rfl, htail⟩ := List.cons.inj heq
      obtain ⟨rfl, -⟩ := List.cons.inj htail
      exact hnext
    | cons v pre => exact h.numbered pre z w post (List.cons.inj heq).2
  delivered := by
    rw [answeredData_cons, List.append_assoc, h.delivered]
    exact hblock

/-- The fragments of a poll, whatever the answers. -/
theorem fragments_fragmented {s : AboxInformation} {p : Poll} (h : p.Ready s)
    (answers : List Answer) : Fragmented p.unsent (p.checkPack1.aboxPackNum - 1)
      (fragments s p answers).1 (fragments s p answers).2 := by
  induction answers generalizing s p with
  | nil =>
    obtain ⟨hsize, hkeep⟩ := h.fragment false
    exact fragmented_singleton hsize hkeep (unsent_eq_take h.room).symm
  | cons a as ih =>
    obtain ⟨hsize, hkeep⟩ := h.fragment a.answers
    have hsends := rxData_sends h a
    unfold fragments
    rcases hrx : rxData s p a with ⟨t, - | q, sent⟩
    · rw [hrx] at hsends
      refine fragmented_singleton hsize hkeep ?_
      cases hsends with
      | failed hno =>
        simp only [Poll.fragment, hno]
        exact (unsent_eq_take h.room).symm
      | success hyes hreg =>
        simp only [Poll.fragment, hyes, if_true]
        exact (List.append_nil _).trans (h.sending.payload_of_end hreg)
    · rw [hrx] at hsends
      dsimp only
      cases hsends with
      | again hno hpack hsend hn hnum =>
        have hq : q.Ready t := by
          refine ⟨⟨?_, ?_, ?_⟩, ?_, ?_, hnum⟩
          · rw [hn]
            exact h.sending.fits
          · rw [hpack, hn]
            exact h.sending.lenth
          · rw [hpack, hn]
            exact h.sending.reg
          · rw [hpack]
            exact h.cmd
          · rw [hn, hsend]
            exact h.room
        have hrest := ih hq
        obtain ⟨b, post, hhead⟩ := fragments_head t q as
        rw [hhead] at hrest ⊢
        refine hrest.cons hsize hkeep ?_ (fun _ => ?_) fun hyes => ?_
        · simp only [Poll.fragment, hno]
          show readN q.send q.sendSize = readN p.send p.sendSize
          rw [hsend, hn]
        · show q.checkPack1.bytes ++ readN q.send q.checkPack1.lenth.toNat =
            p.checkPack1.bytes ++ readN p.send p.checkPack1.lenth.toNat
          rw [hpack, hsend]
        · exact absurd (hno.symm.trans hyes) (by decide)
      | next hyes hnum hunsent hq =>
        have hrest := ih hq
        obtain ⟨b, post, hhead⟩ := fragments_head t q as
        rw [hhead] at hrest ⊢
        refine hrest.cons hsize hkeep ?_ (fun hno => ?_) fun _ => hnum
        · simp only [Poll.fragment, hyes, if_true]
          exact hunsent
        · exact absurd (hyes.symm.trans hno) (by decide)

theorem processExistingData_packSendInfo (s : AboxInformation) (i : ℕ) (saveBuff : List Byte)
    (j : ℕ) : ((processExistingData s i saveBuff).2.2.cboxInfo j).packSendInfo =
      (s.cboxInfo j).packSendInfo := by
  obtain ⟨d, hd⟩ := (processExistingData_savedChanged s i saveBuff).info j
  rw [hd]

/-- The poll of a new call is ready. -/
theorem sendCheckPack_ready (s : AboxInformation) {send : List Byte} {n : ℕ} (i : ℕ)
    (hsend : send.length = buffLen) (hn : n ≤ buffLen) :
    (sendCheckPack s send i n).2.Ready (sendCheckPack s send i n).1 ∧
      (sendCheckPack s send i n).2.unsent = send.take n ∧
      (sendCheckPack s send i n).2.checkPack1.aboxPackNum =
        (s.cboxInfo i).packSendInfo.aboxPackNum + 1 := by
  have hnum : ((nextPackNum s i).cboxInfo i).packSendInfo.aboxPackNum =
      (s.cboxInfo i).packSendInfo.aboxPackNum + 1 := by
    unfold nextPackNum
    rw [AboxInformation.modifyCbox_cboxInfo, if_pos rfl]
  have hpool : buffLen ≤ cboxDataPoolSize := by decide
  refine ⟨⟨sending_nextPackage (le_trans hn hpool), rfl, le_of_le_of_eq hn hsend.symm, ?_⟩,
    readN_of_le (le_of_le_of_eq hn hsend.symm), hnum⟩
  have hstart : Numbered (processExistingData (nextPackNum s i) i
      (List.replicate buffLen 0)).2.2 (sendCheckPack s send i n).2 :=
    congrArg CboxPackageSendInfor.aboxPackNum
      (processExistingData_packSendInfo (nextPackNum s i) i (List.replicate buffLen 0) i)
  exact numbered_txResultData hstart i

/-- Whatever is answered in a call of `sendCheckPack` for any Cbox, each package
    carries at most 57 bytes of the block and says whether more of it follows; it
    is sent again unchanged until it is answered, and the next one has the next
    number; what was answered, then what is left in `send`, is the block. -/
theorem fragmentation (s : AboxInformation) (cboxIndex : ℕ) {send : List Byte} {sendSize : ℕ}
    (hsend : send.length = buffLen) (hsize : sendSize ≤ buffLen) (answers : List Answer) :
    Fragmented (send.take sendSize) (s.cboxInfo cboxIndex).packSendInfo.aboxPackNum
      (fragments (sendCheckPack s send cboxIndex sendSize).1
        (sendCheckPack s send cboxIndex sendSize).2 answers).1
      (fragments (sendCheckPack s send cboxIndex sendSize).1
        (sendCheckPack s send cboxIndex sendSize).2 answers).2 := by
  obtain ⟨hready, hunsent, hnum⟩ := sendCheckPack_ready s cboxIndex hsend hsize
  have h := fragments_fragmented hready answers
  rw [hunsent, hnum, BitVec.add_sub_cancel] at h
  exact h

/-- Sixty bytes for a Cbox that answers the first package only: the other three
    bytes are sent eleven times, and stay in `send`. -/
theorem fragmentation_sixty :
    let call := sendCheckPack initAboxInformation (List.replicate 1024 7) 0 60
    let run := fragments call.1 call.2 (emptyAnswer :: List.replicate 11 noAnswer)
    run.1.map (fun x => (x.data.length, x.answered)) =
        (57, true) :: List.replicate 11 (3, false) ∧
      run.2.unsent = [7, 7, 7] ∧
      Fragmented ((List.replicate 1024 7).take 60) 0 run.1 run.2 :=
  ⟨by decide +kernel, by decide +kernel, fragmentation initAboxInformation 0
    List.length_replicate (by decide) _⟩

end Abox.Radio
