import Abox.Lib.Layout
import Abox.Radio.Check
import Abox.Radio.Records

/-!
# Polling the Cboxes

Model of `traverseCbox` and `sendCheckPack` (`Abox/src/sub_G_A.c` lines 528–830).
The radio thread polls one Cbox after the other. In a poll it sends the first
frame of the queue in fragments and waits in `rx_data` for the answer to each
of them; while it waits other threads can run. What it is doing is a `Poll`:
the local variables of `sendCheckPack`.

A step `rxData` is what `sendCheckPack` does from one wait to the next. Left
out are the printing and `rx_data` and `tx_data` themselves: what is received
and when is the step's `Answer`.
-/

namespace Abox.Radio

/-! ## Packages -/

/-- `payload_length` (`si4463.h` line 152). -/
def payloadLength : ℕ := 64

/-- `sizeof(check_package1)`, and of `check_package2`. -/
def sizeofCheckPackage : ℕ := 7

/-- `dataLengthMax`. -/
def dataLengthMax : ℕ := payloadLength - sizeofCheckPackage

/-- `SEND_END` and `SEND_KEEP` (`sub_G.h` lines 99–103). -/
def sendEnd : BitVec 1 := 0
def sendKeep : BitVec 1 := 1

/-- `ABOX_SEND_CBOX`. -/
def aboxSendCbox : BitVec 1 := 1

/-- `SUB_G_CMD` (`sub_G.h` lines 38–50). -/
def testCmd2 : BitVec 6 := 2
def checkCmd1 : BitVec 6 := 4
def checkCmd2 : BitVec 6 := 5
def checkCmd3 : BitVec 6 := 6

/-- `check_package1` (`sub_G.h` lines 160–173). -/
structure CheckPackage1 where
  cboxDevid : BitVec 32
  soh : BitVec 1
  reg : BitVec 1
  cmd : BitVec 6
  aboxPackNum : Byte
  lenth : Byte

/-- The bytes of a `check_package1`; the bit fields start at the low bit. -/
def CheckPackage1.bytes (p : CheckPackage1) : List Byte :=
  Layout.word.encode p.cboxDevid ++ [p.cmd ++ p.reg ++ p.soh, p.aboxPackNum, p.lenth]

/-- `check_package2` (`sub_G.h` lines 176–188). -/
structure CheckPackage2 where
  aboxDevid : BitVec 32
  soh : BitVec 1
  reg : BitVec 1
  cmd : BitVec 6
  cboxPackNum : Byte
  lenth : Byte

/-- A buffer read as a `check_package2`. -/
def CheckPackage2.ofBytes (bs : List Byte) : CheckPackage2 where
  aboxDevid := u32At bs 0
  soh := (bs.getD 4 0).extractLsb' 0 1
  reg := (bs.getD 4 0).extractLsb' 1 1
  cmd := (bs.getD 4 0).extractLsb' 2 6
  cboxPackNum := bs.getD 5 0
  lenth := bs.getD 6 0

/-- The ids of a `check_package3` (`sub_G.h` lines 191–201). -/
def pDevId (bs : List Byte) (i : Fin devidTypeNum) : BitVec 32 := u32At bs (5 + 4 * i)

/-! ## Reports -/

/-- `txDataResult(…, SEND_RESULT_DATA)` (`sub_G_A.c` lines 403–422). -/
def txResultData (s : AboxInformation) (i : ℕ) : AboxInformation :=
  { s with packageSendNum := s.packageSendNum + 1 }.modifyCbox i fun c =>
    { c with cboxAssessReport :=
      { c.cboxAssessReport with
        packTotal := c.cboxAssessReport.packTotal + 1
        packSendNum := c.cboxAssessReport.packSendNum + 1 } }

/-- `txDataResult(…, SEND_RESULT_FAIL)`. -/
def txResultFail (s : AboxInformation) (i : ℕ) : AboxInformation :=
  s.modifyCbox i fun c =>
    { c with cboxAssessReport :=
      { c.cboxAssessReport with
        packErr := c.cboxAssessReport.packErr + 1
        packSendErr := c.cboxAssessReport.packSendErr + 1 } }

/-- The ticks after a poll (lines 664–669 and 688–697). -/
def setErrTick (s : AboxInformation) (i : ℕ) (ret : RtErr) (tick : BitVec 32) : AboxInformation :=
  s.modifyCbox i fun c =>
    { c with cboxAssessReport :=
      { c.cboxAssessReport with
        errTick1 :=
          if ret = .rtEok ∨ c.cboxAssessReport.errTick1 = 0 then tick
          else c.cboxAssessReport.errTick1
        errTick2 := tick } }

/-- `packSendInfo.aboxPackNum++`. -/
def nextPackNum (s : AboxInformation) (i : ℕ) : AboxInformation :=
  s.modifyCbox i fun c =>
    { c with packSendInfo :=
      { c.packSendInfo with aboxPackNum := c.packSendInfo.aboxPackNum + 1 } }

/-! ## One poll -/

/-- The local variables of `sendCheckPack`, while it waits for an answer. -/
structure Poll where
  cboxIndex : ℕ
  send : List Byte
  sendSize : ℕ
  checkPack1 : CheckPackage1
  cboxRecv : List Byte
  cboxRecvSize : ℕ
  errTimes : ℕ

/-- `subgSend`, as far as it is sent. -/
def Poll.subgSend (p : Poll) : List Byte :=
  p.checkPack1.bytes ++ readN p.send p.checkPack1.lenth.toNat

/-- The next fragment (lines 566–590): at most `dataLengthMax` bytes. -/
def Poll.nextPackage (p : Poll) : Poll :=
  { p with
    checkPack1 :=
      { p.checkPack1 with
        lenth := BitVec.ofNat 8 (if dataLengthMax < p.sendSize then dataLengthMax else p.sendSize)
        reg := if dataLengthMax < p.sendSize then sendKeep else sendEnd }
    errTimes := 0 }

/-- `sendCheckPack` up to its first wait. -/
def sendCheckPack (s : AboxInformation) (send : List Byte) (cboxIndex : ℕ) (sendSize : ℕ) :
    AboxInformation × Poll :=
  let s := nextPackNum s cboxIndex
  let checkPack1 : CheckPackage1 :=
    { cboxDevid := (s.cboxInfo cboxIndex).devidCollection ⟨0, devidTypeNum_pos⟩
      soh := aboxSendCbox
      reg := sendEnd
      cmd := checkCmd1
      aboxPackNum := (s.cboxInfo cboxIndex).packSendInfo.aboxPackNum
      lenth := 0 }
  let (cboxRecv, cboxRecvSize, s) := processExistingData s cboxIndex (List.replicate buffLen 0)
  (txResultData s cboxIndex,
    { cboxIndex, send, sendSize, checkPack1, cboxRecv, cboxRecvSize,
      errTimes := 0 : Poll }.nextPackage)

/-- How a wait ends: with `subgRecv` if a package arrives in time, the tick at
    that time, and whether `Cdma_Info.link != DISCONNENCT`. -/
structure Answer where
  subgRecv : Option (List Byte)
  tick : BitVec 32
  linked : Bool

/-- A received package (lines 603–637): `rtEok` if it is an answer. Bytes past
    the end of `subgRecv` read as zero. -/
def recvPackage (s : AboxInformation) (p : Poll) (subgRecv : List Byte) :
    RtErr × AboxInformation × Poll :=
  let checkPack2 := CheckPackage2.ofBytes subgRecv
  let lenth := checkPack2.lenth.toNat
  if checkPack2.cmd = checkCmd2 then
    (.rtEok, s,
      if p.cboxRecvSize + lenth ≤ buffLen ∧ lenth ≠ 0 then
        { p with
          cboxRecv := p.cboxRecv.take p.cboxRecvSize ++
            readN (subgRecv.drop sizeofCheckPackage) lenth ++
            p.cboxRecv.drop (p.cboxRecvSize + lenth)
          cboxRecvSize := p.cboxRecvSize + lenth }
      else p)
  else if checkPack2.cmd = checkCmd3 then
    (.rtEok, s.modifyCbox p.cboxIndex fun c => { c with devidCollection := pDevId subgRecv }, p)
  else (.rtError, s, p)

/-- The answered fragment is taken off `send` and the next one sent (lines
    673–682). -/
def advance (s : AboxInformation) (p : Poll) : AboxInformation × Poll :=
  let lenth := p.checkPack1.lenth.toNat
  let s := nextPackNum s p.cboxIndex
  let p :=
    { p with
      send := dataLeft p.send lenth
      sendSize := p.sendSize - lenth
      checkPack1 :=
        { p.checkPack1 with
          aboxPackNum := (s.cboxInfo p.cboxIndex).packSendInfo.aboxPackNum } }
  (txResultData s p.cboxIndex, p.nextPackage)

/-- The end of a poll whose last fragment was sent eleven times without an
    answer (lines 684–731). -/
def sendError (s : AboxInformation) (p : Poll) (tick : BitVec 32) : AboxInformation :=
  let s := setErrTick s p.cboxIndex .rtError tick
  let s := saveCboxRecv s p.cboxIndex p.cboxRecv p.cboxRecvSize
  requeueSend s p.cboxIndex p.send p.sendSize

/-- The `reg` of the last answer; every received package overwrites `checkPack2`. -/
def Answer.reg (a : Answer) : BitVec 1 := (CheckPackage2.ofBytes (a.subgRecv.getD [])).reg

/-- After an answer (lines 659–682): the poll ends if neither side has more. -/
def answered (s : AboxInformation) (p : Poll) (a : Answer) :
    AboxInformation × Option Poll × List (List Byte) :=
  let subg := checkDataFromSubg a.linked p.cboxRecv p.cboxRecvSize
  let p := { p with cboxRecv := subg.checkBuff, cboxRecvSize := subg.checkLen }
  if p.checkPack1.reg = sendEnd ∧ a.reg = sendEnd then
    (setErrTick s p.cboxIndex .rtEok a.tick, none, subg.sent)
  else
    let (s, p) := advance s p
    (s, some p, subg.sent)

/-- Without an answer (lines 648–657): the fragment is sent again, or the poll
    ends. -/
def unanswered (s : AboxInformation) (p : Poll) (a : Answer) :
    AboxInformation × Option Poll × List (List Byte) :=
  let s := txResultFail s p.cboxIndex
  let p := { p with errTimes := p.errTimes + 1 }
  if 10 < p.errTimes then
    let subg := checkDataFromSubg a.linked p.cboxRecv p.cboxRecvSize
    let p := { p with cboxRecv := subg.checkBuff, cboxRecvSize := subg.checkLen }
    (sendError s p a.tick, none, subg.sent)
  else (txResultData s p.cboxIndex, some p, [])

/-- `sendCheckPack` from one wait to the next: the poll is `none` at its end. The
    last component is what goes to the server. -/
def rxData (s : AboxInformation) (p : Poll) (a : Answer) :
    AboxInformation × Option Poll × List (List Byte) :=
  match a.subgRecv with
  | none => unanswered s p a
  | some subgRecv =>
    match recvPackage s p subgRecv with
    | (.rtEok, s, p) => answered s p a
    | (.rtError, s, p) => unanswered s p a

/-! ## The radio thread and the others -/

/-- The Cbox table; the poll under way; the index `i` of a `cleanCbox` under way;
    and everything handed to the server. -/
structure Subg where
  aboxInfo : AboxInformation
  poll : Option Poll
  cleaning : Option ℕ
  toServer : List (List Byte)

/-- The state after `initAboxInformation`. -/
def Subg.init : Subg := ⟨initAboxInformation, none, none, []⟩

/-- What happens: a frame from the server; the radio thread starts a pass over
    the Cboxes, gets an answer (or none), takes a registration package or removes
    a Cbox; another thread starts `cleanCbox`, or goes on with it after a delay. -/
inductive Event
  | recvServerData (recv : List Byte)
  | traverseCbox
  | rxData (answer : Answer)
  | recvTestPack2 (cmd : BitVec 6) (p_dev_id : Fin devidTypeNum → BitVec 32)
  | removeCbox (removeIndex : ℕ)
  | cleanCbox
  | cleanNext

/-- The loop of `traverseCbox` from `cboxIndex` on, up to the next wait. -/
def Subg.pollFrom (r : Subg) (cboxIndex : ℕ) : Subg :=
  if cboxIndex < r.aboxInfo.cboxOnlineNum then
    let (getData, dataLen, s) := getPoolDate r.aboxInfo cboxIndex
    let (s, p) := sendCheckPack s getData cboxIndex dataLen
    { r with aboxInfo := s, poll := some p }
  else { r with poll := none }

/-- An answer for the poll `p`. -/
def Subg.answer (r : Subg) (p : Poll) (a : Answer) : Subg :=
  match Radio.rxData r.aboxInfo p a with
  | (s, some p, sent) => { r with aboxInfo := s, poll := some p, toServer := r.toServer ++ sent }
  | (s, none, sent) =>
    Subg.pollFrom { r with aboxInfo := s, toServer := r.toServer ++ sent } (p.cboxIndex + 1)

/-- `recvTestPack2` (`sub_G_A.c` lines 347–359). -/
def recvTestPack2 (s : AboxInformation) (cmd : BitVec 6)
    (p_dev_id : Fin devidTypeNum → BitVec 32) : BitVec 32 × AboxInformation :=
  if cmd = testCmd2 ∧ s.cboxOnlineNum < cboxMaxNum then addCbox s p_dev_id else (0, s)

/-- The body of `cleanCbox` from the test of its loop at `i` to the next delay,
    or to its end. -/
def cleanFrom (fuel : ℕ) (s : AboxInformation) (i : ℕ) : Option (AboxInformation × Option ℕ) :=
  if i < s.cboxOnlineNum then
    (removeCbox fuel s i).map fun s => (s.modifyCbox i fun _ => CboxInformation.zero, some (i + 1))
  else
    some ({ s with
      cboxOnlineNum := 0
      cboxDataPool := cleanPool s.cboxDataPool
      subgDataPool := cleanPool s.subgDataPool }, none)

/-- One step, `none` if it cannot be taken or does not end within `fuel`. The
    radio thread registers and removes Cboxes between its passes. -/
def Subg.step (fuel : ℕ) (r : Subg) : Event → Option Subg
  | .recvServerData recv => some { r with aboxInfo := (Radio.recvServerData r.aboxInfo recv).2 }
  | .traverseCbox => if r.poll.isSome then none else some (r.pollFrom 0)
  | .rxData a => r.poll.map fun p => r.answer p a
  | .recvTestPack2 cmd p_dev_id =>
    if r.poll.isSome then none
    else some { r with aboxInfo := (Radio.recvTestPack2 r.aboxInfo cmd p_dev_id).2 }
  | .removeCbox i =>
    if r.poll.isSome then none
    else (Radio.removeCbox fuel r.aboxInfo i).map fun s => { r with aboxInfo := s }
  | .cleanCbox =>
    if r.cleaning.isSome then none
    else
      (cleanFrom fuel { r.aboxInfo with packageSendNum := 0, packageWrongNum := 0 } 0).map
        fun (s, i) => { r with aboxInfo := s, cleaning := i }
  | .cleanNext => do
    let i ← r.cleaning
    let (s, i) ← cleanFrom fuel r.aboxInfo i
    return { r with aboxInfo := s, cleaning := i }

/-- The event `e` leads from `r` to `r'`. -/
def Subg.Step (r : Subg) (e : Event) (r' : Subg) : Prop := ∃ fuel, r.step fuel e = some r'

/-- What the steps do, one case for each event. -/
inductive Subg.Effect (r : Subg) : Event → Subg → Prop
  | recvServerData (recv : List Byte) :
      Effect r (.recvServerData recv)
        { r with aboxInfo := (Radio.recvServerData r.aboxInfo recv).2 }
  | traverseCbox : r.poll = none → Effect r .traverseCbox (r.pollFrom 0)
  | rxData {p : Poll} (a : Answer) : r.poll = some p → Effect r (.rxData a) (r.answer p a)
  | recvTestPack2 (cmd : BitVec 6) (p_dev_id : Fin devidTypeNum → BitVec 32) : r.poll = none →
      Effect r (.recvTestPack2 cmd p_dev_id)
        { r with aboxInfo := (Radio.recvTestPack2 r.aboxInfo cmd p_dev_id).2 }
  | removeCbox {fuel : ℕ} {s : AboxInformation} (i : ℕ) : r.poll = none →
      Radio.removeCbox fuel r.aboxInfo i = some s →
      Effect r (.removeCbox i) { r with aboxInfo := s }
  | cleanCbox {fuel : ℕ} {s : AboxInformation} {k : Option ℕ} :
      cleanFrom fuel { r.aboxInfo with packageSendNum := 0, packageWrongNum := 0 } 0 =
        some (s, k) →
      Effect r .cleanCbox { r with aboxInfo := s, cleaning := k }
  | cleanNext {fuel i : ℕ} {s : AboxInformation} {k : Option ℕ} : r.cleaning = some i →
      cleanFrom fuel r.aboxInfo i = some (s, k) →
      Effect r .cleanNext { r with aboxInfo := s, cleaning := k }

theorem Subg.Step.effect {r r' : Subg} {e : Event} (h : r.Step e r') : r.Effect e r' := by
  obtain ⟨fuel, h⟩ := h
  cases e with
  | recvServerData recv =>
    obtain rfl := Option.some.inj h
    exact .recvServerData recv
  | traverseCbox =>
    simp only [Subg.step, Option.ite_none_left_eq_some, Option.some.injEq] at h
    obtain ⟨hidle, rfl⟩ := h
    exact .traverseCbox (by simpa using hidle)
  | rxData a =>
    obtain ⟨p, hp, rfl⟩ := Option.map_eq_some_iff.1 h
    exact .rxData a hp
  | recvTestPack2 cmd p_dev_id =>
    simp only [Subg.step, Option.ite_none_left_eq_some, Option.some.injEq] at h
    obtain ⟨hidle, rfl⟩ := h
    exact .recvTestPack2 cmd p_dev_id (by simpa using hidle)
  | removeCbox i =>
    simp only [Subg.step, Option.ite_none_left_eq_some, Option.map_eq_some_iff] at h
    obtain ⟨hidle, s, hs, rfl⟩ := h
    exact .removeCbox i (by simpa using hidle) hs
  | cleanCbox =>
    simp only [Subg.step, Option.ite_none_left_eq_some, Option.map_eq_some_iff] at h
    obtain ⟨-, ⟨s, k⟩, hs, rfl⟩ := h
    exact .cleanCbox hs
  | cleanNext =>
    obtain ⟨i, hi, h⟩ := Option.bind_eq_some_iff.1 h
    obtain ⟨⟨s, k⟩, hs, h⟩ := Option.bind_eq_some_iff.1 h
    obtain rfl := Option.some.inj h
    exact .cleanNext hi hs

/-! ## What a package changes -/

/-- `CHECK_CMD2` and `CHECK_CMD3` are answers. -/
theorem recvPackage_ret (s : AboxInformation) (p : Poll) (subgRecv : List Byte) :
    (recvPackage s p subgRecv).1 = .rtEok ↔ (CheckPackage2.ofBytes subgRecv).cmd = checkCmd2 ∨
      (CheckPackage2.ofBytes subgRecv).cmd = checkCmd3 := by
  simp only [recvPackage]
  by_cases h2 : (CheckPackage2.ofBytes subgRecv).cmd = checkCmd2
  · rw [if_pos h2]
    exact iff_of_true rfl (Or.inl h2)
  · rw [if_neg h2]
    by_cases h3 : (CheckPackage2.ofBytes subgRecv).cmd = checkCmd3
    · rw [if_pos h3]
      exact iff_of_true rfl (Or.inr h3)
    · rw [if_neg h3]
      exact iff_of_false (by simp) (by simp [h2, h3])

/-- Only `CHECK_CMD3` changes the Cbox table. -/
theorem recvPackage_table (s : AboxInformation) (p : Poll) (subgRecv : List Byte) :
    (recvPackage s p subgRecv).2.1 =
      if (CheckPackage2.ofBytes subgRecv).cmd = checkCmd3 then
        s.modifyCbox p.cboxIndex fun c => { c with devidCollection := pDevId subgRecv }
      else s := by
  simp only [recvPackage]
  by_cases h2 : (CheckPackage2.ofBytes subgRecv).cmd = checkCmd2
  · have h3 : (CheckPackage2.ofBytes subgRecv).cmd ≠ checkCmd3 := by
      rw [h2]
      decide
    rw [if_pos h2, if_neg h3]
  · rw [if_neg h2]
    split_ifs <;> rfl

/-- A package changes of the poll at most what has been received. -/
theorem recvPackage_poll (s : AboxInformation) (p : Poll) (subgRecv : List Byte) :
    ∃ cboxRecv n, (recvPackage s p subgRecv).2.2 =
      { p with cboxRecv := cboxRecv, cboxRecvSize := n } ∧ n ≤ max p.cboxRecvSize buffLen := by
  simp only [recvPackage]
  split_ifs with h2 hfit
  · exact ⟨_, _, rfl, le_max_of_le_right hfit.1⟩
  · exact ⟨_, _, rfl, le_max_left _ _⟩
  · exact ⟨_, _, rfl, le_max_left _ _⟩
  · exact ⟨_, _, rfl, le_max_left _ _⟩

/-- The answer is none: nothing came in time, or something else. -/
def Answer.Missing (a : Answer) : Prop :=
  ∀ subgRecv, a.subgRecv = some subgRecv → (CheckPackage2.ofBytes subgRecv).cmd ≠ checkCmd2 ∧
    (CheckPackage2.ofBytes subgRecv).cmd ≠ checkCmd3

theorem rxData_of_missing (s : AboxInformation) (p : Poll) {a : Answer} (h : a.Missing) :
    rxData s p a = unanswered s p a := by
  unfold rxData
  cases hrx : a.subgRecv with
  | none => rfl
  | some subgRecv =>
    obtain ⟨h2, h3⟩ := h subgRecv hrx
    have hpack : recvPackage s p subgRecv = (.rtError, s, p) := by
      simp only [recvPackage]
      rw [if_neg h2, if_neg h3]
    simp only [hpack]

/-- What is received in a poll, after its frames have been handed on. -/
def Poll.checked (p : Poll) (linked : Bool) : Poll :=
  { p with
    cboxRecv := (checkDataFromSubg linked p.cboxRecv p.cboxRecvSize).checkBuff
    cboxRecvSize := (checkDataFromSubg linked p.cboxRecv p.cboxRecvSize).checkLen }

/-- The eleventh wait without an answer ends the poll. -/
theorem rxData_of_failed (s : AboxInformation) (p : Poll) {a : Answer} (h : a.Missing)
    (herr : 10 ≤ p.errTimes) : rxData s p a =
      (sendError (txResultFail s p.cboxIndex) (p.checked a.linked) a.tick, none,
        (checkDataFromSubg a.linked p.cboxRecv p.cboxRecvSize).sent) := by
  rw [rxData_of_missing s p h]
  simp only [unanswered]
  rw [if_pos (Nat.lt_succ_of_le herr)]
  rfl

/-- The table after a package has been taken, before anything else. -/
def received (s : AboxInformation) (p : Poll) (a : Answer) : AboxInformation :=
  match a.subgRecv with
  | some subgRecv => (recvPackage s p subgRecv).2.1
  | none => s

theorem received_of_missing (s : AboxInformation) (p : Poll) {a : Answer} (h : a.Missing) :
    received s p a = s := by
  unfold received
  cases hrx : a.subgRecv with
  | none => rfl
  | some subgRecv =>
    show (recvPackage s p subgRecv).2.1 = s
    rw [recvPackage_table, if_neg (h subgRecv hrx).2]

/-- A package changes nothing, or the ids of the Cbox that is polled. -/
theorem received_cases (s : AboxInformation) (p : Poll) (a : Answer) :
    received s p a = s ∨ ∃ ids, received s p a =
      s.modifyCbox p.cboxIndex fun c => { c with devidCollection := ids } := by
  unfold received
  cases a.subgRecv with
  | none => exact Or.inl rfl
  | some subgRecv =>
    simp only [recvPackage_table]
    split_ifs
    · exact Or.inr ⟨_, rfl⟩
    · exact Or.inl rfl

theorem rxData_of_answer (s : AboxInformation) (p : Poll) {a : Answer} (h : ¬ a.Missing) :
    ∃ cboxRecv n, rxData s p a =
        answered (received s p a) { p with cboxRecv := cboxRecv, cboxRecvSize := n } a ∧
      n ≤ max p.cboxRecvSize buffLen := by
  unfold Answer.Missing at h
  push Not at h
  obtain ⟨subgRecv, hrx, hcmd⟩ := h
  have hret : (recvPackage s p subgRecv).1 = .rtEok := by
    rw [recvPackage_ret]
    by_cases h2 : (CheckPackage2.ofBytes subgRecv).cmd = checkCmd2
    · exact Or.inl h2
    · exact Or.inr (hcmd h2)
  obtain ⟨cboxRecv, n, hpoll, hn⟩ := recvPackage_poll s p subgRecv
  refine ⟨cboxRecv, n, ?_, hn⟩
  unfold rxData received
  rw [hrx, ← hpoll]
  rcases hpack : recvPackage s p subgRecv with ⟨ret, t, q⟩
  rw [hpack] at hret
  obtain rfl : ret = .rtEok := hret
  simp only [hpack]

/-- After an answer the poll goes on, or it has ended and the next Cbox is polled. -/
theorem answer_cases (r : Subg) (p : Poll) (a : Answer) :
    (∃ q, (rxData r.aboxInfo p a).2.1 = some q ∧ r.answer p a = { r with
      aboxInfo := (rxData r.aboxInfo p a).1
      poll := some q
      toServer := r.toServer ++ (rxData r.aboxInfo p a).2.2 }) ∨
    (rxData r.aboxInfo p a).2.1 = none ∧ ∃ next : Subg,
      next.aboxInfo = (rxData r.aboxInfo p a).1 ∧ next.cleaning = r.cleaning ∧
      next.toServer = r.toServer ++ (rxData r.aboxInfo p a).2.2 ∧
      r.answer p a = next.pollFrom (p.cboxIndex + 1) := by
  unfold Subg.answer
  rcases rxData r.aboxInfo p a with ⟨s, - | q, sent⟩
  · exact Or.inr ⟨rfl, { r with aboxInfo := s, toServer := r.toServer ++ sent }, rfl, rfl, rfl, rfl⟩
  · exact Or.inl ⟨q, rfl, rfl⟩

/-- What holds after the answer, and is kept by the poll of the next Cbox. -/
theorem answer_keeps {P : AboxInformation → Prop} {r : Subg} {p : Poll} {a : Answer}
    (hrx : P (rxData r.aboxInfo p a).1)
    (hpoll : ∀ {next : Subg} {i : ℕ}, P next.aboxInfo → P (next.pollFrom i).aboxInfo) :
    P (r.answer p a).aboxInfo := by
  obtain ⟨q, -, heq⟩ | ⟨-, next, hnext, -, -, heq⟩ := answer_cases r p a
  · rw [heq]
    exact hrx
  · rw [← hnext] at hrx
    rw [heq]
    exact hpoll hrx

/-- A pass of the loop of `cleanCbox` removes the Cbox `i` and wipes its slot, or it is
    the end. -/
theorem cleanFrom_cases {fuel : ℕ} {s s' : AboxInformation} {i : ℕ} {k : Option ℕ}
    (h : cleanFrom fuel s i = some (s', k)) :
    (i < s.cboxOnlineNum ∧ k = some (i + 1) ∧ ∃ t, removeCbox fuel s i = some t ∧
      s' = t.modifyCbox i fun _ => CboxInformation.zero) ∨
    ¬ i < s.cboxOnlineNum ∧ k = none ∧ s' = { s with
      cboxOnlineNum := 0
      cboxDataPool := cleanPool s.cboxDataPool
      subgDataPool := cleanPool s.subgDataPool } := by
  unfold cleanFrom at h
  split_ifs at h with hi
  · obtain ⟨t, ht, heq⟩ := Option.map_eq_some_iff.1 h
    obtain ⟨rfl, rfl⟩ := Prod.mk.inj heq
    exact Or.inl ⟨hi, rfl, t, ht, rfl⟩
  · obtain ⟨rfl, rfl⟩ := Prod.mk.inj (Option.some.inj h)
    exact Or.inr ⟨hi, rfl, rfl⟩

/-! ## What a poll leaves unchanged -/

/-- The two states have the same online Cboxes, with the same ids. -/
structure SameDevids (s s' : AboxInformation) : Prop where
  online : s'.cboxOnlineNum = s.cboxOnlineNum
  devid : ∀ j, (s'.cboxInfo j).devidCollection = (s.cboxInfo j).devidCollection

theorem SameDevids.refl (s : AboxInformation) : SameDevids s s := ⟨rfl, fun _ => rfl⟩

theorem SameDevids.trans {s t u : AboxInformation} (h : SameDevids s t) (h' : SameDevids t u) :
    SameDevids s u :=
  ⟨h'.online.trans h.online, fun j => (h'.devid j).trans (h.devid j)⟩

theorem ListsChanged.sameDevids {s s' : AboxInformation} {i : ℕ} (h : ListsChanged s s' i) :
    SameDevids s s' := by
  refine ⟨h.online, fun j => ?_⟩
  obtain ⟨l, hl⟩ := h.info j
  rw [hl]

theorem SavedChanged.sameDevids {s s' : AboxInformation} {i : ℕ} (h : SavedChanged s s' i) :
    SameDevids s s' := by
  refine ⟨h.online, fun j => ?_⟩
  obtain ⟨d, hd⟩ := h.info j
  rw [hd]

/-- Only pack numbers and reports differ. -/
structure SameCboxes (s s' : AboxInformation) : Prop where
  queues : SameQueues s s'
  saved : SameSaved s s'
  devids : SameDevids s s'

theorem SameCboxes.trans {s t u : AboxInformation} (h : SameCboxes s t) (h' : SameCboxes t u) :
    SameCboxes s u :=
  ⟨h.queues.trans h'.queues, h.saved.trans h'.saved, h.devids.trans h'.devids⟩

theorem sameDevids_modifyCbox (s : AboxInformation) (i : ℕ)
    {f : CboxInformation → CboxInformation} (hf : ∀ c, (f c).devidCollection = c.devidCollection) :
    SameDevids s (s.modifyCbox i f) := by
  refine ⟨rfl, fun j => ?_⟩
  rw [AboxInformation.modifyCbox_cboxInfo]
  split_ifs
  · exact hf _
  · rfl

/-- A change of one slot that keeps its records and ids. -/
theorem sameCboxes_modifyCbox (s : AboxInformation) (i : ℕ)
    {f : CboxInformation → CboxInformation} (hqueue : ∀ c, (f c).cboxDataInfo = c.cboxDataInfo)
    (hsaved : ∀ c, (f c).subgDataInfo = c.subgDataInfo)
    (hdevid : ∀ c, (f c).devidCollection = c.devidCollection) :
    SameCboxes s (s.modifyCbox i f) :=
  ⟨sameQueues_modifyCbox s i hqueue, sameSaved_modifyCbox s i hsaved,
    sameDevids_modifyCbox s i hdevid⟩

theorem sameCboxes_txResultData (s : AboxInformation) (i : ℕ) :
    SameCboxes s (txResultData s i) := by
  have h : SameCboxes s { s with packageSendNum := s.packageSendNum + 1 } :=
    ⟨⟨rfl, rfl, fun _ => rfl⟩, ⟨rfl, rfl, fun _ => rfl⟩, ⟨rfl, fun _ => rfl⟩⟩
  exact h.trans (sameCboxes_modifyCbox _ i (fun _ => rfl) (fun _ => rfl) fun _ => rfl)

theorem sameCboxes_txResultFail (s : AboxInformation) (i : ℕ) : SameCboxes s (txResultFail s i) :=
  sameCboxes_modifyCbox s i (fun _ => rfl) (fun _ => rfl) fun _ => rfl

theorem sameCboxes_setErrTick (s : AboxInformation) (i : ℕ) (ret : RtErr) (tick : BitVec 32) :
    SameCboxes s (setErrTick s i ret tick) :=
  sameCboxes_modifyCbox s i (fun _ => rfl) (fun _ => rfl) fun _ => rfl

theorem sameCboxes_nextPackNum (s : AboxInformation) (i : ℕ) : SameCboxes s (nextPackNum s i) :=
  sameCboxes_modifyCbox s i (fun _ => rfl) (fun _ => rfl) fun _ => rfl

theorem sameCboxes_advance (s : AboxInformation) (p : Poll) : SameCboxes s (advance s p).1 :=
  (sameCboxes_nextPackNum s _).trans (sameCboxes_txResultData _ _)

theorem sameDevids_getPoolDate (s : AboxInformation) (i : ℕ) :
    SameDevids s (getPoolDate s i).2.2 :=
  (getPoolDate_listsChanged s i).sameDevids

theorem sameDevids_processExistingData (s : AboxInformation) (i : ℕ) (saveBuff : List Byte) :
    SameDevids s (processExistingData s i saveBuff).2.2 :=
  (processExistingData_savedChanged s i saveBuff).sameDevids

theorem sameDevids_sendCheckPack (s : AboxInformation) (send : List Byte) (i n : ℕ) :
    SameDevids s (sendCheckPack s send i n).1 :=
  ((sameCboxes_nextPackNum s i).devids.trans (sameDevids_processExistingData _ i _)).trans
    (sameCboxes_txResultData _ i).devids

theorem sameDevids_saveCboxRecv (s : AboxInformation) (i : ℕ) (cboxRecv : List Byte) (n : ℕ) :
    SameDevids s (saveCboxRecv s i cboxRecv n) :=
  (saveCboxRecv_savedChanged s i cboxRecv n).sameDevids

theorem sameDevids_requeueSend (s : AboxInformation) (i : ℕ) (send : List Byte) (n : ℕ) :
    SameDevids s (requeueSend s i send n) :=
  (requeueSend_listsChanged s i send n).sameDevids

theorem sameDevids_sendError (s : AboxInformation) (p : Poll) (tick : BitVec 32) :
    SameDevids s (sendError s p tick) :=
  ((sameCboxes_setErrTick s _ _ tick).devids.trans (sameDevids_saveCboxRecv _ _ _ _)).trans
    (sameDevids_requeueSend _ _ _ _)

theorem sameDevids_answered (s : AboxInformation) (p : Poll) (a : Answer) :
    SameDevids s (answered s p a).1 := by
  simp only [answered]
  split_ifs
  · exact (sameCboxes_setErrTick s _ _ _).devids
  · exact (sameCboxes_advance s _).devids

theorem sameDevids_unanswered (s : AboxInformation) (p : Poll) (a : Answer) :
    SameDevids s (unanswered s p a).1 := by
  simp only [unanswered]
  split_ifs
  · exact (sameCboxes_txResultFail s _).devids.trans (sameDevids_sendError _ _ _)
  · exact ((sameCboxes_txResultFail s _).trans (sameCboxes_txResultData _ _)).devids

end Abox.Radio
