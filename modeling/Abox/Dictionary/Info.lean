import Abox.Config.ServerList

/-!
# The data dictionary

Model of the answer to a `TCMD_121` request for dictionary entries: `getDicInfo`,
`del_smd1_func` and the five functions behind them (`applications/dictionary.c` lines
138–285 and 461–775), with the sections of `dictionary.h` lines 56–124.

A request is a list of items, each a first address and a number of addresses; the
upper half of an address is its section. The answer has an entry for each address.
A write outside `send` and a call of `getDataFunc` before it has been set are faults.
The reads of the count and of the items are recorded, since they can go past the end of
the frame: `rt_mq_recv` copies a whole message slot into the buffer, in which bytes of
earlier messages are left behind the frame.

* `sectionEnd_eq`: the end address of a section is that of its last field.
* `getSection_snd_of_known`: up to there, the `switch` has a case for each address.
-/

namespace Abox.Dictionary

open Server Config Update

/-! ## The sections -/

structure FirstDictionaryInfo where
  softVer : BitVec 32
  hwVer : BitVec 32
  modID : BitVec 32
  modType : BitVec 16
  proModel : BitVec 16

structure SecondDictionaryInfo where
  panelLink : BitVec 32
  panelRevnum : BitVec 32
  panelSendnum : BitVec 32
  serConnum : BitVec 32
  worktime : BitVec 32

structure ThirdDictionaryInfo where
  resetStatus : BitVec 32
  resetTime : BitVec 32
  imePassword : Chars 8
  delPassword : Chars 8

structure FourthDictionaryInfo where
  csq : Byte
  modSignalMAX : BitVec 16
  modSignalMIN : BitVec 16
  modSignalAVE : BitVec 16
  mdn : Chars 16
  ccid : Chars 32

structure FifthDictionaryInfo where
  freq_num : Byte
  cboxRssi : Byte

/-- `dictionary_info`. -/
structure DictionaryInfo where
  firstDicInfo : FirstDictionaryInfo
  secondDicInfo : SecondDictionaryInfo
  thirdDicInfo : ThirdDictionaryInfo
  fourthDicInfo : FourthDictionaryInfo
  fifthDicInfo : FifthDictionaryInfo

/-- `FIRSTDIC_END_ADDR` to `FIFTHDIC_END_ADDR`. -/
def firstdicEndAddr : BitVec 32 := 0x10004
def seconddicEndAddr : BitVec 32 := 0x20004
def thirddicEndAddr : BitVec 32 := 0x30003
def fourthdicEndAddr : BitVec 32 := 0x40005
def fifthdicEndAddr : BitVec 32 := 0x50001

/-! ## One entry -/

inductive Fault
  /-- a write outside `send` -/
  | writeOutside
  /-- a call of `getDataFunc` without a value -/
  | unsetFunc
  deriving DecidableEq

/-- `rt_memcpy(send+len, …)`. -/
def copyTo (send : List Byte) (len : BitVec 16) (bs : List Byte) : Except Fault (List Byte) :=
  if len.toNat + bs.length ≤ send.length then .ok (memcpy send len.toNat bs)
  else .error .writeOutside

/-- A length and as many bytes. -/
def putData (data : List Byte) (send : List Byte) (len : BitVec 16) :
    Except Fault (List Byte × BitVec 16) := do
  let dataLen := BitVec.ofNat 16 data.length
  let send ← copyTo send len (Layout.half.encode dataLen)
  let len := len + 2
  let send ← copyTo send len data
  return (send, len + dataLen)

/-- A function like `getDicFirstInfo`: from the address and `send` and `sendLen` to
    both afterwards. -/
abbrev GetDataFunc := BitVec 32 → List Byte → BitVec 16 → Except Fault (List Byte × BitVec 16)

/-- A `switch` over the addresses; the default branch only prints. -/
def getDicData (field : BitVec 32 → Option (List Byte)) : GetDataFunc := fun addr send len =>
  match field addr with
  | some data => putData data send len
  | none => .ok (send, len)

def getDicFirstInfo (d : FirstDictionaryInfo) : GetDataFunc := getDicData fun addr =>
  if addr = 0x10000 then some (Layout.word.encode d.softVer)
  else if addr = 0x10001 then some (Layout.word.encode d.hwVer)
  else if addr = 0x10002 then some (Layout.word.encode d.modID)
  else if addr = 0x10003 then some (Layout.half.encode d.modType)
  else if addr = 0x10004 then some (Layout.half.encode d.proModel)
  else none

def getDicSecondInfo (d : SecondDictionaryInfo) : GetDataFunc := getDicData fun addr =>
  if addr = 0x20000 then some (Layout.word.encode d.panelLink)
  else if addr = 0x20001 then some (Layout.word.encode d.panelRevnum)
  else if addr = 0x20002 then some (Layout.word.encode d.panelSendnum)
  else if addr = 0x20003 then some (Layout.word.encode d.serConnum)
  else if addr = 0x20004 then some (Layout.word.encode d.worktime)
  else none

def getDicThirdInfo (d : ThirdDictionaryInfo) : GetDataFunc := getDicData fun addr =>
  if addr = 0x30000 then some (Layout.word.encode d.resetStatus)
  else if addr = 0x30001 then some (Layout.word.encode d.resetTime)
  else if addr = 0x30002 then some (List.ofFn d.imePassword)
  else if addr = 0x30003 then some (List.ofFn d.delPassword)
  else none

def getDicFourthInfo (d : FourthDictionaryInfo) : GetDataFunc := getDicData fun addr =>
  if addr = 0x40000 then some [d.csq]
  else if addr = 0x40001 then some (Layout.half.encode d.modSignalMAX)
  else if addr = 0x40002 then some (Layout.half.encode d.modSignalMIN)
  else if addr = 0x40003 then some (Layout.half.encode d.modSignalAVE)
  else if addr = 0x40004 then some (List.ofFn d.mdn)
  else if addr = 0x40005 then some (List.ofFn d.ccid)
  else none

def getDicFifthInfo (d : FifthDictionaryInfo) : GetDataFunc := getDicData fun addr =>
  if addr = 0x50000 then some [d.freq_num]
  else if addr = 0x50001 then some [d.cboxRssi]
  else none

/-! ## Items and requests -/

/-- `cycle_info`. -/
structure CycleInfo where
  startAddr : BitVec 32
  len : BitVec 16

/-- `send`, `*sendLen_t` and `*totalCount_t`. -/
structure Reply where
  send : List Byte
  sendLen : BitVec 16
  totalCount : BitVec 16

/-- `startAddr >> 16`. -/
def CycleInfo.sect (c : CycleInfo) : ℕ := (c.startAddr >>> 16).toNat

/-- The `switch` of `getDicInfo`: `endAddr`, and `getDataFunc` if it is set. -/
def getSection (dicInfo : DictionaryInfo) : ℕ → BitVec 32 × Option GetDataFunc
  | 1 => (firstdicEndAddr, some (getDicFirstInfo dicInfo.firstDicInfo))
  | 2 => (seconddicEndAddr, some (getDicSecondInfo dicInfo.secondDicInfo))
  | 3 => (thirddicEndAddr, some (getDicThirdInfo dicInfo.thirdDicInfo))
  | 4 => (fourthdicEndAddr, some (getDicFourthInfo dicInfo.fourthDicInfo))
  | 5 => (fifthdicEndAddr, some (getDicFifthInfo dicInfo.fifthDicInfo))
  | _ => (0, none)

/-- A pass of the loop of `getDicInfo` (lines 188–203). -/
def getEntry (endAddr : BitVec 32) (getDataFunc : Option GetDataFunc) (startAddr : BitVec 32)
    (r : Reply) : Except Fault Reply := do
  let send ← copyTo r.send r.sendLen (Layout.word.encode startAddr)
  let len := r.sendLen + 4
  let (send, len) ←
    if endAddr < startAddr then putData [] send len
    else
      match getDataFunc with
      | some getDataFunc => getDataFunc startAddr send len
      | none => .error .unsetFunc
  return ⟨send, len, r.totalCount + 1⟩

/-- The loop of `getDicInfo`. -/
def getEntries (endAddr : BitVec 32) (getDataFunc : Option GetDataFunc) :
    ℕ → BitVec 32 → Reply → Except Fault Reply
  | 0, _, r => .ok r
  | n + 1, startAddr, r => do
    let r ← getEntry endAddr getDataFunc startAddr r
    getEntries endAddr getDataFunc n (startAddr + 1) r

def getDicInfo (dicInfo : DictionaryInfo) (cycleInfo : CycleInfo) (r : Reply) :
    Except Fault Reply :=
  if buffLen < r.sendLen.toNat then .ok r
  else
    let (endAddr, getDataFunc) := getSection dicInfo cycleInfo.sect
    getEntries endAddr getDataFunc cycleInfo.len.toNat cycleInfo.startAddr r

/-- `dataLen` of `del_smd1_func`, the places and lengths of the reads so far, and the
    reply so far. -/
structure Look where
  dataLen : BitVec 16
  reads : List (ℕ × ℕ)
  reply : Reply

/-- A pass of the loop of `del_smd1_func` (lines 266–272). -/
def lookItem (dicInfo : DictionaryInfo) (rev : List Byte) (l : Look) : Except Fault Look := do
  let startAddr := u32At rev l.dataLen.toNat
  let len := u16At rev (l.dataLen + 4).toNat
  let reply ← getDicInfo dicInfo ⟨startAddr, len⟩ l.reply
  return ⟨l.dataLen + 4 + 2, l.reads ++ [(l.dataLen.toNat, 4), ((l.dataLen + 4).toNat, 2)], reply⟩

/-- The loop of `del_smd1_func`. -/
def lookItems (dicInfo : DictionaryInfo) (rev : List Byte) : ℕ → Look → Except Fault Look
  | 0, l => .ok l
  | n + 1, l => do
    let l ← lookItem dicInfo rev l
    lookItems dicInfo rev n l

/-- `TCMD_121_SCMD_LOOK_INFO`. -/
def tcmd121ScmdLookInfo : BitVec 16 := 1

/-- `cmdInfo.count`. -/
def requestCount (rev : List Byte) : BitVec 16 := u16At rev (sizeofStPackCmd + 2)

/-- Lines 275–281: the header, the scmd and the count are written, and `Abox_send_pack`
    writes the checksum behind them all. -/
def sendReply (appId : BitVec 32) (reply : Reply) : Except Fault (List Byte × ℕ) :=
  let packcmd : StPackCmd :=
    { soh := csoh
      cmd := tcmd122
      id := appId
      len := reply.sendLen - BitVec.ofNat 16 sizeofStPackCmd }
  let send := memcpy reply.send 0 (packcmdBytes packcmd)
  let send := memcpy send sizeofStPackCmd (Layout.half.encode tcmd121ScmdLookInfo)
  let send := memcpy send (sizeofStPackCmd + 2) (Layout.half.encode reply.totalCount)
  if reply.sendLen.toNat + 2 ≤ send.length then .ok (Abox_send_pack send reply.sendLen)
  else .error .writeOutside

/-- `del_smd1_func`: what is handed to `sendDataToServer`, and the reads of the count and
    the items; `appId` is `Sys_Setup.app.id`. -/
def del_smd1_func (appId : BitVec 32) (dicInfo : DictionaryInfo) (rev : List Byte) :
    Except Fault ((List Byte × ℕ) × List (ℕ × ℕ)) := do
  let dataLen := BitVec.ofNat 16 (sizeofStPackCmd + 2 + 2)
  let sendLen := BitVec.ofNat 16 (sizeofStPackCmd + 2 + 2)
  let l ← lookItems dicInfo rev (requestCount rev).toNat
    ⟨dataLen, [(sizeofStPackCmd + 2, 2)], ⟨List.replicate buffLen 0, sendLen, 0⟩⟩
  let sent ← sendReply appId l.reply
  return (sent, l.reads)

/-! ## The dictionary as lists -/

/-- The fields of a section in the order of their addresses. -/
def sectionFields (d : DictionaryInfo) : ℕ → List (List Byte)
  | 1 =>
    [Layout.word.encode d.firstDicInfo.softVer, Layout.word.encode d.firstDicInfo.hwVer,
      Layout.word.encode d.firstDicInfo.modID, Layout.half.encode d.firstDicInfo.modType,
      Layout.half.encode d.firstDicInfo.proModel]
  | 2 =>
    [Layout.word.encode d.secondDicInfo.panelLink, Layout.word.encode d.secondDicInfo.panelRevnum,
      Layout.word.encode d.secondDicInfo.panelSendnum, Layout.word.encode d.secondDicInfo.serConnum,
      Layout.word.encode d.secondDicInfo.worktime]
  | 3 =>
    [Layout.word.encode d.thirdDicInfo.resetStatus, Layout.word.encode d.thirdDicInfo.resetTime,
      List.ofFn d.thirdDicInfo.imePassword, List.ofFn d.thirdDicInfo.delPassword]
  | 4 =>
    [[d.fourthDicInfo.csq], Layout.half.encode d.fourthDicInfo.modSignalMAX,
      Layout.half.encode d.fourthDicInfo.modSignalMIN,
      Layout.half.encode d.fourthDicInfo.modSignalAVE, List.ofFn d.fourthDicInfo.mdn,
      List.ofFn d.fourthDicInfo.ccid]
  | 5 => [[d.fifthDicInfo.freq_num], [d.fifthDicInfo.cboxRssi]]
  | _ => []

/-- The sizes of these fields. -/
def sectionWidths : ℕ → List ℕ
  | 1 => [4, 4, 4, 2, 2]
  | 2 => [4, 4, 4, 4, 4]
  | 3 => [4, 4, 8, 8]
  | 4 => [1, 2, 2, 2, 16, 32]
  | 5 => [1, 1]
  | _ => []

/-- The end address of a section. -/
def sectionEnd : ℕ → BitVec 32
  | 1 => firstdicEndAddr
  | 2 => seconddicEndAddr
  | 3 => thirddicEndAddr
  | 4 => fourthdicEndAddr
  | 5 => fifthdicEndAddr
  | _ => 0

/-- The section exists. -/
def Known (s : ℕ) : Prop := 1 ≤ s ∧ s ≤ 5

instance (s : ℕ) : Decidable (Known s) := inferInstanceAs (Decidable (_ ∧ _))

/-- The data for `addr` in an item that starts in section `s`: the field with this
    address, and nothing past the end of the section. -/
def fieldData (d : DictionaryInfo) (s : ℕ) (addr : BitVec 32) : List Byte :=
  if sectionEnd s < addr then [] else (sectionFields d s).getD (addr.toNat - s * 2 ^ 16) []

def fieldWidth (s : ℕ) (addr : BitVec 32) : ℕ :=
  if sectionEnd s < addr then 0 else (sectionWidths s).getD (addr.toNat - s * 2 ^ 16) 0

/-- The entry for `addr`: address, length and data. -/
def entry (d : DictionaryInfo) (s : ℕ) (addr : BitVec 32) : List Byte :=
  Layout.word.encode addr ++ Layout.half.encode (BitVec.ofNat 16 (fieldData d s addr).length) ++
    fieldData d s addr

theorem map_length_sectionFields (d : DictionaryInfo) (s : ℕ) :
    (sectionFields d s).map List.length = sectionWidths s := by
  unfold sectionFields sectionWidths
  split
  all_goals rfl

theorem length_fieldData (d : DictionaryInfo) (s : ℕ) (addr : BitVec 32) :
    (fieldData d s addr).length = fieldWidth s addr := by
  unfold fieldData fieldWidth
  split_ifs
  · rfl
  · rw [← map_length_sectionFields d s, ← List.length_nil (α := Byte), List.getD_map]

theorem length_entry (d : DictionaryInfo) (s : ℕ) (addr : BitVec 32) :
    (entry d s addr).length = 6 + fieldWidth s addr := by
  unfold entry
  rw [List.length_append, List.length_append, Layout.word.length_encode, Layout.half.length_encode,
    length_fieldData]
  rfl

theorem fieldWidth_le (s : ℕ) (addr : BitVec 32) : fieldWidth s addr ≤ 32 := by
  have hall : ∀ w ∈ sectionWidths s, w ≤ 32 := by
    unfold sectionWidths
    split
    all_goals decide
  unfold fieldWidth
  split_ifs
  · exact Nat.zero_le _
  · rw [List.getD_eq_getElem?_getD]
    rcases hget : (sectionWidths s)[addr.toNat - s * 2 ^ 16]? with - | w
    · exact Nat.zero_le _
    · exact hall w (List.mem_of_getElem? hget)

theorem getSection_fst (d : DictionaryInfo) (s : ℕ) : (getSection d s).1 = sectionEnd s := by
  unfold getSection sectionEnd
  split
  all_goals rfl

theorem getSection_snd_of_not {d : DictionaryInfo} {s : ℕ} (h : ¬ Known s) :
    (getSection d s).2 = none ∧ sectionEnd s = 0 := by
  unfold getSection sectionEnd
  split
  all_goals first | exact ⟨rfl, rfl⟩ | exact absurd (by decide) h

/-- The end address is that of the last field. -/
theorem sectionEnd_eq {s : ℕ} (hs : Known s) :
    (sectionEnd s).toNat + 1 = s * 2 ^ 16 + (sectionWidths s).length := by
  obtain ⟨h1, h5⟩ := hs
  interval_cases s
  all_goals rfl

theorem getDicData_of_eq {field : BitVec 32 → Option (List Byte)} {addr : BitVec 32}
    {data : List Byte} (h : field addr = some data) : getDicData field addr = putData data := by
  funext send len
  simp only [getDicData, h]

/-- Up to the end of a section the `switch` has a case for each address: it is the field
    at its place. -/
theorem getSection_snd_of_known (d : DictionaryInfo) {s : ℕ} (hs : Known s) {addr : BitVec 32}
    (hstart : s * 2 ^ 16 ≤ addr.toNat) (hend : ¬ sectionEnd s < addr) :
    ∃ f, (getSection d s).2 = some f ∧ f addr = putData (fieldData d s addr) := by
  have hdata : fieldData d s addr = (sectionFields d s).getD (addr.toNat - s * 2 ^ 16) [] :=
    if_neg hend
  have hlast := sectionEnd_eq hs
  rw [BitVec.not_lt, BitVec.le_def] at hend
  rw [hdata]
  obtain ⟨k, hk⟩ : ∃ k, k = addr.toNat - s * 2 ^ 16 := ⟨_, rfl⟩
  have hlt : k < (sectionWidths s).length := by omega
  obtain rfl : addr = BitVec.ofNat 32 (s * 2 ^ 16 + k) := by
    apply BitVec.eq_of_toNat_eq
    rw [BitVec.toNat_ofNat, Nat.mod_eq_of_lt]
    all_goals omega
  rw [← hk]
  clear hdata hk hend hlast hstart
  obtain ⟨h1, h5⟩ := hs
  interval_cases s
  all_goals
    simp only [sectionWidths, List.length_cons, List.length_nil] at hlt
    interval_cases k
    all_goals exact ⟨_, rfl, getDicData_of_eq rfl⟩

end Abox.Dictionary
