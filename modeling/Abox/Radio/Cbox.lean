import Abox.Lib.Loops
import Abox.Radio.Pool

/-!
# Cboxes and their queues

Model of the Cbox bookkeeping of `Abox/src/sub_G_A.c` and of `recvServerData`
(`Abox_exchange.c` lines 97–145), under the names of the source.

Every Cbox has a list of at most `CBOX_MAX_DATA_LIST` descriptors of server
frames waiting in `cboxDataPool`, and one descriptor of radio data saved in
`subgDataPool`. Of the array `cboxDataList` only the first `entryNum` entries
are modelled: every function writes an entry before it counts it. Left out are
the calls that print, drive LEDs or send a heartbeat (`ser_heart`).
-/

namespace Abox.Radio

open Segments Loops

/-- `CBOX_MAX_NUM` (`sub_G.h` line 15). -/
def cboxMaxNum : ℕ := 50

/-- `CBOX_MAX_DATA_LIST` (`sub_G.h` line 16). -/
def cboxMaxDataList : ℕ := 10

/-- `DEVID_TYPE_NUM` (`sub_G.h` line 115). -/
def devidTypeNum : ℕ := 6

theorem devidTypeNum_pos : 0 < devidTypeNum := by decide

/-- `CBOXDATAPOOLSIZE` (`abox.h` line 175). -/
def cboxDataPoolSize : ℕ := 5 * 1024

/-- `SUBGDATAPOOLSIZE` (`abox.h` line 176). -/
def subgDataPoolSize : ℕ := 4 * 1024

/-- `cbox_package_send_infor` (`abox.h` lines 57–61). -/
structure CboxPackageSendInfor where
  aboxPackNum : Byte
  cboxPackNum : Byte

/-- `cbox_assessment_report` (`abox.h` lines 90–104). -/
structure CboxAssessmentReport where
  packTotal : BitVec 32
  packErr : BitVec 32
  packSendNum : BitVec 32
  packSendErr : BitVec 32
  errTick1 : BitVec 32
  errTick2 : BitVec 32

/-- `cbox_data_info` (`abox.h` lines 106–110): the first `entryNum` entries of
    `cboxDataList`. -/
structure CboxDataInfo where
  cboxDataList : List DataInfo
  entry_le : cboxDataList.length ≤ cboxMaxDataList

/-- `entryNum`. -/
def CboxDataInfo.entryNum (c : CboxDataInfo) : ℕ := c.cboxDataList.length

/-- `cbox_information` (`abox.h` lines 113–122). -/
structure CboxInformation where
  devidCollection : Fin devidTypeNum → BitVec 32
  packSendInfo : CboxPackageSendInfor
  cboxAssessReport : CboxAssessmentReport
  cboxDataInfo : CboxDataInfo
  subgDataInfo : DataInfo

/-- A `cbox_information` of zero bytes. -/
def CboxInformation.zero : CboxInformation where
  devidCollection := fun _ => 0
  packSendInfo := ⟨0, 0⟩
  cboxAssessReport := ⟨0, 0, 0, 0, 0, 0⟩
  cboxDataInfo := ⟨[], by decide⟩
  subgDataInfo := ⟨0, 0⟩

/-- `devidCollection[CBOX_DEVID] & 0x00ffffff`, the id server frames are
    addressed to. -/
def CboxInformation.modId (c : CboxInformation) : BitVec 32 :=
  c.devidCollection ⟨0, devidTypeNum_pos⟩ &&& 0x00ffffff

/-- The parts of `abox_information` (`abox.h` lines 178–189) the Cbox functions
    use. `cboxInfo` has `CBOX_MAX_NUM` slots, the first `cboxOnlineNum` of them
    online. -/
structure AboxInformation where
  packageSendNum : BitVec 32
  packageWrongNum : BitVec 32
  cboxOnlineNum : ℕ
  cboxInfo : ℕ → CboxInformation
  cboxDataPool : PoolSetting cboxDataPoolSize
  subgDataPool : PoolSetting subgDataPoolSize

/-- `aboxInfo` after `initAboxInformation` (`sub_G_A.c` lines 107–131). -/
def initAboxInformation : AboxInformation where
  packageSendNum := 0
  packageWrongNum := 0
  cboxOnlineNum := 0
  cboxInfo := fun _ => CboxInformation.zero
  cboxDataPool := InitDataPool cboxDataPoolSize
  subgDataPool := InitDataPool subgDataPoolSize

namespace AboxInformation

/-- The slot `i` changed by `f`. -/
def modifyCbox (s : AboxInformation) (i : ℕ) (f : CboxInformation → CboxInformation) :
    AboxInformation :=
  { s with cboxInfo := Function.update s.cboxInfo i (f (s.cboxInfo i)) }

/-- `f` applied to every online slot. -/
def mapOnline (s : AboxInformation) (f : CboxInformation → CboxInformation) : AboxInformation :=
  { s with cboxInfo := fun j => if j < s.cboxOnlineNum then f (s.cboxInfo j) else s.cboxInfo j }

/-- The first online Cbox with the given 24-bit id. -/
def findCbox (s : AboxInformation) (id : BitVec 32) : Option ℕ :=
  (List.range s.cboxOnlineNum).find? fun i => id == (s.cboxInfo i).modId

variable (s : AboxInformation) (f : CboxInformation → CboxInformation) (i j : ℕ)

@[simp] theorem modifyCbox_cboxOnlineNum :
    (s.modifyCbox i f).cboxOnlineNum = s.cboxOnlineNum := rfl

@[simp] theorem modifyCbox_cboxDataPool :
    (s.modifyCbox i f).cboxDataPool = s.cboxDataPool := rfl

@[simp] theorem modifyCbox_subgDataPool :
    (s.modifyCbox i f).subgDataPool = s.subgDataPool := rfl

theorem modifyCbox_cboxInfo : (s.modifyCbox i f).cboxInfo j =
    if j = i then f (s.cboxInfo j) else s.cboxInfo j := by
  unfold modifyCbox
  split_ifs with h
  · subst h
    exact Function.update_self ..
  · exact Function.update_of_ne h ..

@[simp] theorem mapOnline_cboxOnlineNum : (s.mapOnline f).cboxOnlineNum = s.cboxOnlineNum := rfl

@[simp] theorem mapOnline_cboxDataPool : (s.mapOnline f).cboxDataPool = s.cboxDataPool := rfl

@[simp] theorem mapOnline_subgDataPool : (s.mapOnline f).subgDataPool = s.subgDataPool := rfl

theorem mapOnline_cboxInfo : (s.mapOnline f).cboxInfo j =
    if j < s.cboxOnlineNum then f (s.cboxInfo j) else s.cboxInfo j := rfl

end AboxInformation

/-! ## Descriptor lists -/

/-- `cboxDataList` with a new last entry. -/
def CboxDataInfo.append (c : CboxDataInfo) (d : DataInfo)
    (h : c.entryNum < cboxMaxDataList) : CboxDataInfo :=
  ⟨c.cboxDataList ++ [d], by simpa [CboxDataInfo.entryNum] using h⟩

/-- `entryNum--`. -/
def CboxDataInfo.dropLast (c : CboxDataInfo) : CboxDataInfo :=
  ⟨c.cboxDataList.dropLast, by have := c.entry_le; simp; omega⟩

/-- The list moved left by one entry, then `entryNum--`. -/
def CboxDataInfo.tail (c : CboxDataInfo) : CboxDataInfo :=
  ⟨c.cboxDataList.tail, by have := c.entry_le; simp; omega⟩

/-- `f` applied to every entry. -/
def CboxDataInfo.map (f : DataInfo → DataInfo) (c : CboxDataInfo) : CboxDataInfo :=
  ⟨c.cboxDataList.map f, by have := c.entry_le; simpa using this⟩

/-- An entry behind the removed record `d` moves down by its length. -/
def shiftDataAddr (d e : DataInfo) : DataInfo :=
  if e.dataAddr > d.dataAddr then { e with dataAddr := e.dataAddr - d.dataLength } else e

/-! ## Server frames -/

/-- `recvServerData` (`Abox_exchange.c` lines 97–145) on a non-null `recv`. -/
def recvServerData (s : AboxInformation) (recv : List Byte) : RtErr × AboxInformation :=
  let packcmd := StPackCmd.ofBytes recv
  let recvLen := packcmd.frameLen
  match s.findCbox packcmd.id with
  | none => (.rtEok, s)
  | some i =>
    if h : (s.cboxInfo i).cboxDataInfo.entryNum < cboxMaxDataList then
      match WritePool s.cboxDataPool recv recvLen with
      | some (dataAddr, pool) =>
        (.rtEok, { s with
          cboxDataPool := pool
          cboxInfo := Function.update s.cboxInfo i { s.cboxInfo i with
            cboxDataInfo := (s.cboxInfo i).cboxDataInfo.append ⟨dataAddr, recvLen⟩ h } })
      | none => (.rtError, s)
    else (.rtEok, s)

/-! ## Registration -/

/-- `initCboxInfo` (`sub_G_A.c` lines 280–304). -/
def initCboxInfo (c : CboxInformation) : CboxInformation :=
  { c with
    packSendInfo := ⟨0, 0⟩
    cboxAssessReport := ⟨0, 0, 0, 0, 0, 0⟩
    cboxDataInfo := ⟨[], by decide⟩
    subgDataInfo := { c.subgDataInfo with dataLength := 0 } }

/-- `addCbox` (`sub_G_A.c` lines 308–343) on the ids of a `test_package2`. -/
def addCbox (s : AboxInformation) (p_dev_id : Fin devidTypeNum → BitVec 32) :
    BitVec 32 × AboxInformation :=
  let devid := p_dev_id ⟨0, devidTypeNum_pos⟩
  if (List.range s.cboxOnlineNum).any
      fun i => devid == (s.cboxInfo i).devidCollection ⟨0, devidTypeNum_pos⟩ then
    (devid, s)
  else
    let cboxInfo := initCboxInfo { s.cboxInfo s.cboxOnlineNum with devidCollection := p_dev_id }
    (devid, { s with
      cboxInfo := Function.update s.cboxInfo s.cboxOnlineNum cboxInfo
      cboxOnlineNum := s.cboxOnlineNum + 1 })

/-! ## Saved radio data -/

/-- `processExistingData` (`sub_G_A.c` lines 426–477) on slot `i`: `saveBuff`
    afterwards, the returned length, and the new state. -/
def processExistingData (s : AboxInformation) (i : ℕ) (saveBuff : List Byte) :
    List Byte × ℕ × AboxInformation :=
  let own := (s.cboxInfo i).subgDataInfo
  if own.dataLength = 0 then (saveBuff, 0, s)
  else if subgDataPoolSize ≤ own.dataLength then
    (saveBuff, 0, { s with subgDataPool := cleanPool s.subgDataPool }.modifyCbox i
      fun c => { c with subgDataInfo := ⟨0, 0⟩ })
  else
    match ReadPool s.subgDataPool own.dataAddr own.dataLength with
    | some (bytes, pool) =>
      -- the length returned is `saveLen`, which is set from `dataAddr`
      (bytes ++ List.replicate (buffLen - bytes.length) 0, (own.dataAddr % 2 ^ 32).toNat,
        ({ s with subgDataPool := pool }.mapOnline fun c =>
          if c.subgDataInfo.dataLength ≠ 0 then
            { c with subgDataInfo := shiftDataAddr own c.subgDataInfo }
          else c).modifyCbox i fun c => { c with subgDataInfo := ⟨0, 0⟩ })
    | none => (List.replicate buffLen 0, 0, s)

/-- `writeDataInfo` (`sub_G_A.c` lines 479–497): the result, the pool and
    `*dataInfo_t` afterwards. -/
def writeDataInfo {poolSize : ℕ} (poolSetting : PoolSetting poolSize) (addBuff : List Byte)
    (writeSize : ℕ) (dataInfo : DataInfo) : RtErr × PoolSetting poolSize × DataInfo :=
  if writeSize = 0 then (.rtError, poolSetting, dataInfo)
  else
    match WritePool poolSetting addBuff writeSize with
    | none => (.rtError, poolSetting, ⟨0, 0⟩)
    | some (dataAddr, pool) => (.rtEok, pool, ⟨dataAddr, writeSize⟩)

/-! ## Polling a queue -/

/-- `getPoolDate` (`sub_G_A.c` lines 740–795) on slot `i`: `saveBuf` afterwards,
    the returned length, and the new state. -/
def getPoolDate (s : AboxInformation) (i : ℕ) : List Byte × ℕ × AboxInformation :=
  match (s.cboxInfo i).cboxDataInfo.cboxDataList with
  | [] => (List.replicate buffLen 0, 0, s)
  | d :: _ =>
    match ReadPool s.cboxDataPool d.dataAddr d.dataLength with
    | some (bytes, pool) =>
      (bytes ++ List.replicate (buffLen - bytes.length) 0, d.dataLength,
        ({ s with cboxDataPool := pool }.mapOnline fun c =>
          { c with cboxDataInfo := c.cboxDataInfo.map (shiftDataAddr d) }).modifyCbox i fun c =>
            { c with cboxDataInfo := c.cboxDataInfo.tail })
    | none =>
      (List.replicate buffLen 0, 0,
        s.modifyCbox i fun c => { c with cboxDataInfo := c.cboxDataInfo.dropLast })

/-- `insetCboxHeadData` (`sub_G_A.c` lines 501–523): a full list loses its last
    entry. -/
def insetCboxHeadData (addDataInfo : DataInfo) (c : CboxDataInfo) : CboxDataInfo :=
  if h : c.entryNum ≤ cboxMaxDataList then
    ⟨addDataInfo :: (if c.entryNum = cboxMaxDataList then c.dropLast else c).cboxDataList, by
      unfold CboxDataInfo.entryNum at h ⊢
      split_ifs with h'
      · simp [CboxDataInfo.dropLast, cboxMaxDataList] at h' ⊢
        omega
      · simp only [List.length_cons]
        omega⟩
  else c

/-! ## After a failed poll -/

/-- Lines 710–715 of `sub_G_A.c`: the radio data of a failed poll is saved. -/
def saveCboxRecv (s : AboxInformation) (cboxIndex : ℕ) (cboxRecv : List Byte)
    (cboxRecvSize : ℕ) : AboxInformation :=
  if cboxRecvSize = 0 then s
  else
    let (_, pool, dataInfo) := writeDataInfo s.subgDataPool cboxRecv (cboxRecvSize % 2 ^ 16)
      (s.cboxInfo cboxIndex).subgDataInfo
    { s with subgDataPool := pool }.modifyCbox cboxIndex fun c =>
      { c with subgDataInfo := dataInfo }

/-- Lines 717–727 of `sub_G_A.c`: what a failed poll has not sent goes back to
    the head of the list. -/
def requeueSend (s : AboxInformation) (cboxIndex : ℕ) (send : List Byte) (sendSize : ℕ) :
    AboxInformation :=
  if sendSize = 0 then s
  else
    -- `dataTemp` is not initialised; it is read only after it has been written
    match writeDataInfo s.cboxDataPool send (sendSize % 2 ^ 16) ⟨0, 0⟩ with
    | (.rtEok, pool, dataTemp) =>
      { s with cboxDataPool := pool }.modifyCbox cboxIndex fun c =>
        { c with cboxDataInfo := insetCboxHeadData dataTemp c.cboxDataInfo }
    | (.rtError, pool, _) => { s with cboxDataPool := pool }

/-! ## Removal -/

/-- Lines 864–871 of `removeCbox`: the Cboxes behind slot `removeIndex` move
    down by one slot, and the slot that was the last is reset. -/
def moveCboxesDown (s : AboxInformation) (removeIndex : ℕ) : AboxInformation :=
  let n := s.cboxOnlineNum - 1
  { s with
    cboxOnlineNum := n
    cboxInfo := fun i =>
      if i < removeIndex then s.cboxInfo i
      else if i < n then s.cboxInfo (i + 1)
      else if i = n then initCboxInfo (s.cboxInfo n)
      else s.cboxInfo i }

/-- The first loop of `removeCbox`. -/
def dropSaved (fuel : ℕ) (s : AboxInformation) (removeIndex : ℕ) : Option AboxInformation :=
  whileLoop (fun s => (s.cboxInfo removeIndex).subgDataInfo.dataLength != 0)
    (fun s => some (processExistingData s removeIndex (List.replicate buffLen 0)).2.2) fuel s

/-- The second loop of `removeCbox`. -/
def dropQueue (fuel : ℕ) (s : AboxInformation) (removeIndex : ℕ) : Option AboxInformation :=
  whileLoop (fun s => (s.cboxInfo removeIndex).cboxDataInfo.entryNum != 0)
    (fun s => some (getPoolDate s removeIndex).2.2) fuel s

/-- `removeCbox` (`sub_G_A.c` lines 847–874); `none` if one of its `while` loops
    has not ended within `fuel`. -/
def removeCbox (fuel : ℕ) (s : AboxInformation) (removeIndex : ℕ) : Option AboxInformation :=
  if s.cboxOnlineNum ≤ removeIndex then some s
  else do
    let s ← dropSaved fuel s removeIndex
    let s ← dropQueue fuel s removeIndex
    return moveCboxesDown s removeIndex

/-- `cleanCbox` (`sub_G_A.c` lines 186–204). The loop wipes slot `i` after
    `removeCbox(i)` has moved the following Cboxes down. -/
def cleanCbox (fuel : ℕ) (s : AboxInformation) : Option AboxInformation := do
  let s := { s with packageSendNum := 0, packageWrongNum := 0 }
  let (s, _) ← whileLoop (fun (s, i) => decide (i < s.cboxOnlineNum))
    (fun (s, i) => (removeCbox fuel s i).map fun s =>
      (s.modifyCbox i fun _ => CboxInformation.zero, i + 1)) fuel (s, 0)
  return { s with
    cboxOnlineNum := 0
    cboxDataPool := cleanPool s.cboxDataPool
    subgDataPool := cleanPool s.subgDataPool }

end Abox.Radio
