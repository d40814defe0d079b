import Abox.Lib.Runs
import Abox.Radio.Records

/-!
# Calls on the Cbox table

The functions of `Abox.Radio.Cbox` as the steps of a system, in any order.

`processDataFromServer` (`client.c` lines 271–299) hands a frame to
`recvServerData` again and again until it is saved, waiting between two tries;
other calls can run while it waits. `save_err` counts the failed tries. The try
after more than 1000 of them empties the pool instead.
-/

namespace Abox.Radio

/-- The Cbox table, the frame that waits to be saved, and `save_err`. -/
structure System where
  aboxInfo : AboxInformation
  saving : Option (List Byte)
  saveErr : BitVec 16

/-- The system after `initAboxInformation`. -/
def System.init : System := ⟨initAboxInformation, none, 0⟩

/-- One pass of the loop of `client.c` lines 277–295. -/
def System.trySave (s : System) (recv : List Byte) : System :=
  match recvServerData s.aboxInfo recv with
  | (.rtEok, aboxInfo) => { s with aboxInfo := aboxInfo, saving := none }
  | (.rtError, aboxInfo) =>
    if s.saveErr > 1000 then
      { aboxInfo := { aboxInfo with cboxDataPool := cleanPool aboxInfo.cboxDataPool }
        saving := none
        saveErr := s.saveErr + 1 }
    else { aboxInfo := aboxInfo, saving := some recv, saveErr := s.saveErr + 1 }

/-- A call. `processDataFromServer` starts a call of that function, `retry` is
    its next try to save a frame. -/
inductive Call
  | processDataFromServer
  | recvServerData (recv : List Byte)
  | retry
  | getPoolDate (cboxIndex : ℕ)
  | requeueSend (cboxIndex : ℕ) (send : List Byte) (sendSize : ℕ)
  | processExistingData (cboxIndex : ℕ) (saveBuff : List Byte)
  | saveCboxRecv (cboxIndex : ℕ) (cboxRecv : List Byte) (cboxRecvSize : ℕ)
  | addCbox (p_dev_id : Fin devidTypeNum → BitVec 32)
  | removeCbox (removeIndex : ℕ)
  | cleanCbox

/-- The state after a call, `none` if it cannot be made or does not end within
    `fuel`. `traverseCbox` starts polls of online Cboxes only; a poll ends at
    the slot it started at, whether or not that is still online. `addCbox` is
    called while there are free slots (`sub_G_A.c` line 351). -/
def System.step (fuel : ℕ) (s : System) : Call → Option System
  | .processDataFromServer => if s.saving.isSome then none else some { s with saveErr := 0 }
  | .recvServerData recv => if s.saving.isSome then none else some (s.trySave recv)
  | .retry => s.saving.map s.trySave
  | .getPoolDate i =>
    if i < s.aboxInfo.cboxOnlineNum then
      some { s with aboxInfo := (Radio.getPoolDate s.aboxInfo i).2.2 }
    else none
  | .requeueSend i send sendSize =>
    if i < cboxMaxNum then
      some { s with aboxInfo := Radio.requeueSend s.aboxInfo i send sendSize }
    else none
  | .processExistingData i saveBuff =>
    if i < s.aboxInfo.cboxOnlineNum then
      some { s with aboxInfo := (Radio.processExistingData s.aboxInfo i saveBuff).2.2 }
    else none
  | .saveCboxRecv i cboxRecv cboxRecvSize =>
    if i < cboxMaxNum then
      some { s with aboxInfo := Radio.saveCboxRecv s.aboxInfo i cboxRecv cboxRecvSize }
    else none
  | .addCbox p_dev_id =>
    if s.aboxInfo.cboxOnlineNum < cboxMaxNum then
      some { s with aboxInfo := (Radio.addCbox s.aboxInfo p_dev_id).2 }
    else none
  | .removeCbox i => (Radio.removeCbox fuel s.aboxInfo i).map fun a => { s with aboxInfo := a }
  | .cleanCbox => (Radio.cleanCbox fuel s.aboxInfo).map fun a => { s with aboxInfo := a }

/-- The call `c` ends and leads from `s` to `s'`. -/
def System.Step (s : System) (c : Call) (s' : System) : Prop := ∃ fuel, s.step fuel c = some s'

/-- What the calls do, one case for each. -/
inductive System.Effect (s : System) : Call → System → Prop
  | processDataFromServer : Effect s .processDataFromServer { s with saveErr := 0 }
  | recvServerData (recv : List Byte) : Effect s (.recvServerData recv) (s.trySave recv)
  | retry {recv : List Byte} : s.saving = some recv → Effect s .retry (s.trySave recv)
  | getPoolDate {i : ℕ} : i < s.aboxInfo.cboxOnlineNum →
      Effect s (.getPoolDate i) { s with aboxInfo := (Radio.getPoolDate s.aboxInfo i).2.2 }
  | requeueSend (i : ℕ) (send : List Byte) (n : ℕ) :
      Effect s (.requeueSend i send n) { s with aboxInfo := Radio.requeueSend s.aboxInfo i send n }
  | processExistingData {i : ℕ} (saveBuff : List Byte) : i < s.aboxInfo.cboxOnlineNum →
      Effect s (.processExistingData i saveBuff)
        { s with aboxInfo := (Radio.processExistingData s.aboxInfo i saveBuff).2.2 }
  | saveCboxRecv (i : ℕ) (cboxRecv : List Byte) (n : ℕ) :
      Effect s (.saveCboxRecv i cboxRecv n)
        { s with aboxInfo := Radio.saveCboxRecv s.aboxInfo i cboxRecv n }
  | addCbox (p_dev_id : Fin devidTypeNum → BitVec 32) :
      Effect s (.addCbox p_dev_id) { s with aboxInfo := (Radio.addCbox s.aboxInfo p_dev_id).2 }
  | removeCbox {fuel : ℕ} {a : AboxInformation} {i : ℕ} :
      Radio.removeCbox fuel s.aboxInfo i = some a →
      Effect s (.removeCbox i) { s with aboxInfo := a }
  | cleanCbox {fuel : ℕ} {a : AboxInformation} : Radio.cleanCbox fuel s.aboxInfo = some a →
      Effect s .cleanCbox { s with aboxInfo := a }

theorem System.Step.effect {s s' : System} {c : Call} (h : s.Step c s') : s.Effect c s' := by
  obtain ⟨fuel, h⟩ := h
  cases c with
  | processDataFromServer =>
    simp only [System.step, Option.ite_none_left_eq_some, Option.some.injEq] at h
    obtain ⟨-, rfl⟩ := h
    exact .processDataFromServer
  | recvServerData recv =>
    simp only [System.step, Option.ite_none_left_eq_some, Option.some.injEq] at h
    obtain ⟨-, rfl⟩ := h
    exact .recvServerData recv
  | retry =>
    obtain ⟨recv, hrecv, rfl⟩ := Option.map_eq_some_iff.1 h
    exact .retry hrecv
  | getPoolDate i =>
    simp only [System.step, Option.ite_none_right_eq_some, Option.some.injEq] at h
    obtain ⟨hi, rfl⟩ := h
    exact .getPoolDate hi
  | requeueSend i send n =>
    simp only [System.step, Option.ite_none_right_eq_some, Option.some.injEq] at h
    obtain ⟨-, rfl⟩ := h
    exact .requeueSend i send n
  | processExistingData i saveBuff =>
    simp only [System.step, Option.ite_none_right_eq_some, Option.some.injEq] at h
    obtain ⟨hi, rfl⟩ := h
    exact .processExistingData saveBuff hi
  | saveCboxRecv i cboxRecv n =>
    simp only [System.step, Option.ite_none_right_eq_some, Option.some.injEq] at h
    obtain ⟨-, rfl⟩ := h
    exact .saveCboxRecv i cboxRecv n
  | addCbox p_dev_id =>
    simp only [System.step, Option.ite_none_right_eq_some, Option.some.injEq] at h
    obtain ⟨-, rfl⟩ := h
    exact .addCbox p_dev_id
  | removeCbox i =>
    obtain ⟨a, ha, rfl⟩ := Option.map_eq_some_iff.1 h
    exact .removeCbox ha
  | cleanCbox =>
    obtain ⟨a, ha, rfl⟩ := Option.map_eq_some_iff.1 h
    exact .cleanCbox ha

/-- A try to save a frame fails after more than 1000 failed ones. -/
def System.Overflow (s : System) (recv : List Byte) : Prop :=
  NoRoom s.aboxInfo recv ∧ s.saveErr > 1000

/-- What one try to save a frame does to the Cbox table. -/
theorem trySave_cases (s : System) (recv : List Byte) :
    (¬ s.Overflow recv ∧ ((s.trySave recv).aboxInfo = s.aboxInfo ∨
      ∃ i, i < s.aboxInfo.cboxOnlineNum ∧ 0 < (StPackCmd.ofBytes recv).frameLen ∧
        Put s.aboxInfo (s.trySave recv).aboxInfo i
          (readN recv (StPackCmd.ofBytes recv).frameLen)
          (queue (s.aboxInfo.cboxInfo i) ++
            [nextRecord s.aboxInfo.cboxDataPool (StPackCmd.ofBytes recv).frameLen]))) ∨
    (s.Overflow recv ∧ (s.trySave recv).aboxInfo =
      { s.aboxInfo with cboxDataPool := cleanPool s.aboxInfo.cboxDataPool }) := by
  rcases recvServerData_cases s.aboxInfo recv with ⟨heq, hno⟩ | ⟨hno, heq, -⟩ |
      ⟨hno, i, s', heq, hfind, h0, -, hput⟩
  · by_cases herr : s.saveErr > 1000
    · exact Or.inr ⟨⟨hno, herr⟩, by simp only [System.trySave, heq, herr, if_true]⟩
    · exact Or.inl ⟨fun h => herr h.2, Or.inl (by simp only [System.trySave, heq, herr, if_false])⟩
  · exact Or.inl ⟨fun h => hno h.1, Or.inl (by simp only [System.trySave, heq])⟩
  · refine Or.inl ⟨fun h => hno h.1, Or.inr ⟨i, findCbox_lt hfind, h0, ?_⟩⟩
    simpa only [System.trySave, heq] using hput

end Abox.Radio
