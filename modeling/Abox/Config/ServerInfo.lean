import Abox.Flash.Secret
import Abox.Lib.Layout

/-!
# The stored server and network information

Model of `controlServerInfo` and its callers (`sub-G/exchange.c` lines 161–352)
over the flash of `Abox.Flash.Secret`. The record `serverNet_information`
(`net_config.h` lines 130–178) holds the list of servers and the network
configuration.

* `stored_setSerInfo`: what `setSerInfo` saves is what is read back.
* `controlServerInfo_init`, `…_change`, `…_read`, `…_writeServer`,
  `…_writeNetconfig`: what each request does to the record and to `serNetNum`.
-/

namespace Abox.Config

open Nor Flash

/-! ## The record -/

/-- A `char` array of length `n`. -/
abbrev Chars (n : ℕ) := Fin n → Byte

/-- `net_info`. -/
structure NetInfo where
  serport : Chars 8
  seraddr : Chars 16
  deriving DecidableEq

/-- `net_addr_config`. -/
structure NetAddrConfig where
  ipaddr : Chars 16
  ipmaskaddr : Chars 16
  ipgatwayaddr : Chars 16
  deriving DecidableEq

/-- `con_eth_config`. -/
structure ConEthConfig where
  status : BitVec 32
  netAddrConfig : NetAddrConfig
  deriving DecidableEq

/-- `con_wifi_config`. -/
structure ConWifiConfig where
  wifiName : Chars 24
  wifiPassword : Chars 24
  deriving DecidableEq

/-- `ser_con_config`. -/
structure SerConConfig where
  configStyle : BitVec 32
  ethConfig : ConEthConfig
  wifiConfig : ConWifiConfig
  deriving DecidableEq

/-- `SERVER_DEFAULT_NUM` (`net_config.h` line 57). -/
def serverDefaultNum : ℤ := 1

/-- `SERVER_WRITE_NUM` (`net_config.h` line 58). -/
def serverWriteNum : ℤ := 4

/-- `SERVER_NUM_MAX` (`net_config.h` line 59). -/
abbrev serverNumMax : ℕ := 5

/-- `serverNet_information`. -/
structure ServerNetInformation where
  serverNetNum : BitVec 32
  netInfo : Fin serverNumMax → NetInfo
  netConfig : SerConConfig
  deriving DecidableEq

/-- `serverNetNum` as the `int` it is. -/
def ServerNetInformation.num (s : ServerNetInformation) : ℤ := s.serverNetNum.toInt

def netInfoLayout : Layout NetInfo :=
  ((Layout.byte.array 8).pair (Layout.byte.array 16)).iso
    ⟨fun p => ⟨p.1, p.2⟩, fun n => (n.serport, n.seraddr), fun _ => rfl, fun _ => rfl⟩

def netAddrConfigLayout : Layout NetAddrConfig :=
  ((Layout.byte.array 16).pair ((Layout.byte.array 16).pair (Layout.byte.array 16))).iso
    ⟨fun p => ⟨p.1, p.2.1, p.2.2⟩, fun c => (c.ipaddr, c.ipmaskaddr, c.ipgatwayaddr),
      fun _ => rfl, fun _ => rfl⟩

def conEthConfigLayout : Layout ConEthConfig :=
  (Layout.word.pair netAddrConfigLayout).iso
    ⟨fun p => ⟨p.1, p.2⟩, fun c => (c.status, c.netAddrConfig), fun _ => rfl, fun _ => rfl⟩

def conWifiConfigLayout : Layout ConWifiConfig :=
  ((Layout.byte.array 24).pair (Layout.byte.array 24)).iso
    ⟨fun p => ⟨p.1, p.2⟩, fun c => (c.wifiName, c.wifiPassword), fun _ => rfl, fun _ => rfl⟩

def serConConfigLayout : Layout SerConConfig :=
  (Layout.word.pair (conEthConfigLayout.pair conWifiConfigLayout)).iso
    ⟨fun p => ⟨p.1, p.2.1, p.2.2⟩, fun c => (c.configStyle, c.ethConfig, c.wifiConfig),
      fun _ => rfl, fun _ => rfl⟩

/-- The packed layout of `serverNet_information`. -/
def serverNetInformationLayout : Layout ServerNetInformation :=
  (Layout.word.pair ((netInfoLayout.array serverNumMax).pair serConConfigLayout)).iso
    ⟨fun p => ⟨p.1, p.2.1, p.2.2⟩, fun s => (s.serverNetNum, s.netInfo, s.netConfig),
      fun _ => rfl, fun _ => rfl⟩

/-! ## The record in the flash -/

/-- `rt_strcmp` (`kservice.c` lines 457–463). -/
def rt_strcmp : List Byte → List Byte → ℤ
  | c :: cs, t :: ts =>
    if c ≠ 0 ∧ c = t then rt_strcmp cs ts else (c.toNat : ℤ) - (t.toNat : ℤ)
  | cs, ts => ((cs.headD 0).toNat : ℤ) - ((ts.headD 0).toNat : ℤ)

/-- `URL_SERVER0_NET`, `"iot.esto.cn"` with its terminating zero. -/
def urlServer0Net : List Byte :=
  [0x69, 0x6F, 0x74, 0x2E, 0x65, 0x73, 0x74, 0x6F, 0x2E, 0x63, 0x6E, 0]

/-- `URL_SERVER0_PORT`, `"19991"` with its terminating zero. -/
def urlServer0Port : List Byte := [0x31, 0x39, 0x39, 0x39, 0x31, 0]

/-- A string copied into a zeroed array. -/
def Chars.ofString (n : ℕ) (s : List Byte) : Chars n := fun i => s.getD i 0

def NetInfo.zero : NetInfo := ⟨fun _ => 0, fun _ => 0⟩

def SerConConfig.zero : SerConConfig :=
  ⟨0, ⟨0, ⟨fun _ => 0, fun _ => 0, fun _ => 0⟩⟩, ⟨fun _ => 0, fun _ => 0⟩⟩

def ServerNetInformation.zero : ServerNetInformation :=
  ⟨0, fun _ => NetInfo.zero, SerConConfig.zero⟩

/-- The entry of the built-in server. -/
def defaultNetInfo : NetInfo :=
  ⟨Chars.ofString 8 urlServer0Port, Chars.ofString 16 urlServer0Net⟩

/-- The record `controlServerInfo` builds when it finds none (lines 208–212). -/
def defaultServerInfo : ServerNetInformation :=
  ⟨1, fun i => if i = 0 then defaultNetInfo else NetInfo.zero, SerConConfig.zero⟩

/-- The record in the flash, as `STMFLASH_Read` gets it. -/
def stored (m : Mem) : ServerNetInformation :=
  serverNetInformationLayout.decode
    (STMFLASH_Read m serverNetInfoAddr (sizeofServerNetInformation / 4))

/-- `setSerInfo` (lines 161–165). -/
def setSerInfo (m : Mem) (serNetInfo : ServerNetInformation) : Option Mem :=
  setSecret_1 m serverNetInfoAddr (serverNetInformationLayout.encode serNetInfo)

/-- What is saved is read back. -/
theorem stored_setSerInfo (m : Mem) (serNetInfo : ServerNetInformation) :
    ∃ m', setSerInfo m serNetInfo = some m' ∧ stored m' = serNetInfo := by
  obtain ⟨m', hm', hload, -⟩ := setSecret_1_eq m .server
    ⟨serverNetInformationLayout.encode serNetInfo, serverNetInformationLayout.length_encode _⟩
  refine ⟨m', hm', ?_⟩
  have hread : STMFLASH_Read m' serverNetInfoAddr (sizeofServerNetInformation / 4) =
      serverNetInformationLayout.encode serNetInfo := hload
  unfold stored
  rw [hread, serverNetInformationLayout.decode_encode]

-- from here on only `stored_setSerInfo` says what the two do
attribute [irreducible] stored setSerInfo

/-! ## Requests -/

/-- The part of the system `controlServerInfo` works on: the flash,
    `Cdma_Info.serNetNum`, and the server in `Sys_Setup.serport` and
    `Sys_Setup.seraddr`, `none` if it was read from outside `netInfo`. -/
structure ServerSystem where
  flash : Mem
  serNetNum : BitVec 8
  sysSetup : Option NetInfo

/-- The record in the flash. -/
def ServerSystem.stored (s : ServerSystem) : ServerNetInformation := Config.stored s.flash

/-- `CONTROL_SERVER_INFO` (`net_config.h` lines 104–113). -/
inductive ControlServerInfo
  | initServerInfo
  | changeServerInfo
  | writeServerInfo
  | readServerInfo
  | readNetconfigInfo
  | writeNetconfigInfo

/-- The test of lines 199–202: the record holds a list of servers that starts
    with the built-in one. -/
def ServerNetInformation.valid (s : ServerNetInformation) : Bool :=
  !(decide (s.num < serverDefaultNum) || decide ((serverNumMax : ℤ) < s.num) ||
    decide (rt_strcmp urlServer0Net (List.ofFn (s.netInfo 0).seraddr) ≠ 0) ||
    decide (rt_strcmp urlServer0Port (List.ofFn (s.netInfo 0).serport) ≠ 0))

/-- Lines 199–214: a record without a list of servers is replaced. -/
def checkServerInfo (m : Mem) (serNetInfo : ServerNetInformation) :
    Option (Mem × ServerNetInformation) :=
  if serNetInfo.valid then some (m, serNetInfo)
  else (setSerInfo m defaultServerInfo).map fun m => (m, defaultServerInfo)

/-- Lines 292–296: `Sys_Setup` gets the entry `netInfo[Cdma_Info.serNetNum]`. -/
def ServerSystem.select (s : ServerSystem) (serNetInfo : ServerNetInformation) : ServerSystem :=
  { s with
    sysSetup :=
      if h : s.serNetNum.toNat < serverNumMax then some (serNetInfo.netInfo ⟨s.serNetNum.toNat, h⟩)
      else none }

/-- `Cdma_Info.serNetNum` after `INIT_SERVER_INFO` (lines 221–228). -/
def initNum (num : ℤ) (serNetNum : BitVec 8) : BitVec 8 :=
  if num = serverDefaultNum then 0 else if serverDefaultNum < num then 1 else serNetNum

/-- `Cdma_Info.serNetNum` after `CHANGE_SERVER_INFO` (lines 237–247). -/
def changeNum (num : ℤ) (serNetNum : BitVec 8) : BitVec 8 :=
  if num = serverDefaultNum then 0
  else if serverDefaultNum < num then
    if num = (serNetNum.toNat : ℤ) + 1 then 0 else serNetNum + 1
  else serNetNum

/-- The record `WRITE_SERVER_INFO` builds (lines 257–272). -/
def writtenServerInfo (RWriteInfo : ServerNetInformation) : ServerNetInformation :=
  let serverNetNum := RWriteInfo.serverNetNum + 1
  { serverNetNum := serverNetNum
    netInfo := fun i =>
      if i = 0 then defaultNetInfo
      else if (i.val : ℤ) < serverNetNum.toInt then RWriteInfo.netInfo (i - 1)
      else NetInfo.zero
    netConfig := SerConConfig.zero }

/-- The requests about the list of servers (lines 197–298), after the record has
    been read. The result is the system and `*RWriteInfo` afterwards. -/
def controlServerList (s : ServerSystem) (serNetInfo : ServerNetInformation)
    (styleControl : ControlServerInfo) (RWriteInfo : Option ServerNetInformation) :
    Option (ServerSystem × Option ServerNetInformation) := do
  let (flash, serNetInfo) ← checkServerInfo s.flash serNetInfo
  let s := { s with flash := flash }
  match styleControl with
  | .initServerInfo =>
    let s := { s with serNetNum := initNum serNetInfo.num s.serNetNum }
    return (s.select serNetInfo, RWriteInfo)
  | .changeServerInfo =>
    let s := { s with serNetNum := changeNum serNetInfo.num s.serNetNum }
    return (s.select serNetInfo, RWriteInfo)
  | .writeServerInfo =>
    match RWriteInfo with
    | none => return (s, RWriteInfo)
    | some r =>
      if serverWriteNum < r.num then return (s, RWriteInfo)
      let flash ← setSerInfo s.flash ServerNetInformation.zero
      let flash ← setSerInfo flash (writtenServerInfo r)
      return ({ s with flash := flash }, RWriteInfo)
  | .readServerInfo => return (s, RWriteInfo.map fun _ => serNetInfo)
  | _ => return (s, RWriteInfo)

/-- `controlServerInfo` (lines 178–304). `none`: the program hangs, or reads or
    writes through a null `RWriteInfo`. -/
def controlServerInfo (s : ServerSystem) (styleControl : ControlServerInfo)
    (RWriteInfo : Option ServerNetInformation) :
    Option (ServerSystem × Option ServerNetInformation) :=
  let serNetInfo := s.stored
  match styleControl with
  | .readNetconfigInfo => RWriteInfo.map fun _ => (s, some serNetInfo)
  | .writeNetconfigInfo => RWriteInfo.bind fun r =>
    (setSerInfo s.flash { serNetInfo with netConfig := r.netConfig }).map fun flash =>
      ({ s with flash := flash }, RWriteInfo)
  | _ => controlServerList s serNetInfo styleControl RWriteInfo

/-- `readServerInfo` (lines 348–352) and `getServerNetAdrr` (lines 309–317). -/
def getServerNetAdrr (s : ServerSystem) : Option ServerSystem :=
  (controlServerInfo s .readServerInfo (some ServerNetInformation.zero)).map fun (s, readInfo) =>
    s.select (readInfo.getD ServerNetInformation.zero)

/-- `changeServerInfo` (lines 334–338). -/
def changeServerInfo (s : ServerSystem) : Option ServerSystem :=
  (controlServerInfo s .changeServerInfo none).bind fun (s, _) => getServerNetAdrr s

/-! ## What the requests do -/

/-- The record a request about the list of servers works on. -/
def ServerNetInformation.checked (s : ServerNetInformation) : ServerNetInformation :=
  if s.valid then s else defaultServerInfo

theorem defaultServerInfo_valid : defaultServerInfo.valid = true := by decide

theorem checked_valid (s : ServerNetInformation) : s.checked.valid = true := by
  unfold ServerNetInformation.checked
  split_ifs with h
  · exact h
  · exact defaultServerInfo_valid

theorem checked_of_valid {s : ServerNetInformation} (h : s.valid = true) : s.checked = s := if_pos h

/-- A record that passes the check has one to five servers. -/
theorem num_of_valid {s : ServerNetInformation} (h : s.valid = true) : 1 ≤ s.num ∧ s.num ≤ 5 := by
  simp only [ServerNetInformation.valid, Bool.not_eq_true', Bool.or_eq_false_iff] at h
  obtain ⟨⟨⟨h1, h2⟩, -⟩, -⟩ := h
  exact ⟨not_lt.1 (of_decide_eq_false h1), not_lt.1 (of_decide_eq_false h2)⟩

theorem checkServerInfo_eq (m : Mem) : ∃ m', checkServerInfo m (stored m) =
    some (m', (stored m).checked) ∧ stored m' = (stored m).checked := by
  unfold checkServerInfo ServerNetInformation.checked
  by_cases h : (stored m).valid = true
  · rw [if_pos h, if_pos h]
    exact ⟨m, rfl, rfl⟩
  · rw [if_neg h, if_neg h]
    obtain ⟨m', hm', hst⟩ := stored_setSerInfo m defaultServerInfo
    exact ⟨m', by rw [hm', Option.map_some], hst⟩

theorem controlServerInfo_init (s : ServerSystem) (RWriteInfo : Option ServerNetInformation) :
    ∃ s', controlServerInfo s .initServerInfo RWriteInfo = some (s', RWriteInfo) ∧
      s'.stored = s.stored.checked ∧
      s'.serNetNum = initNum s.stored.checked.num s.serNetNum := by
  obtain ⟨m', hm', hst⟩ := checkServerInfo_eq s.flash
  refine ⟨ServerSystem.select { s with
    flash := m'
    serNetNum := initNum (stored s.flash).checked.num s.serNetNum } (stored s.flash).checked,
    ?_, hst, rfl⟩
  show controlServerList s (stored s.flash) .initServerInfo RWriteInfo = _
  unfold controlServerList
  rw [hm', Option.bind_eq_bind, Option.bind_some]
  rfl

theorem controlServerInfo_change (s : ServerSystem) (RWriteInfo : Option ServerNetInformation) :
    ∃ s', controlServerInfo s .changeServerInfo RWriteInfo = some (s', RWriteInfo) ∧
      s'.stored = s.stored.checked ∧
      s'.serNetNum = changeNum s.stored.checked.num s.serNetNum ∧
      s' = s'.select s.stored.checked := by
  obtain ⟨m', hm', hst⟩ := checkServerInfo_eq s.flash
  refine ⟨ServerSystem.select { s with
    flash := m'
    serNetNum := changeNum (stored s.flash).checked.num s.serNetNum } (stored s.flash).checked,
    ?_, hst, rfl, rfl⟩
  show controlServerList s (stored s.flash) .changeServerInfo RWriteInfo = _
  unfold controlServerList
  rw [hm', Option.bind_eq_bind, Option.bind_some]
  rfl

theorem controlServerInfo_read (s : ServerSystem) (RWriteInfo : Option ServerNetInformation) :
    ∃ s', controlServerInfo s .readServerInfo RWriteInfo =
        some (s', RWriteInfo.map fun _ => s.stored.checked) ∧
      s'.stored = s.stored.checked ∧ s'.serNetNum = s.serNetNum := by
  obtain ⟨m', hm', hst⟩ := checkServerInfo_eq s.flash
  refine ⟨{ s with flash := m' }, ?_, hst, rfl⟩
  show controlServerList s (stored s.flash) .readServerInfo RWriteInfo = _
  unfold controlServerList
  rw [hm', Option.bind_eq_bind, Option.bind_some]
  rfl

/-- The write is carried out. -/
def Accepted (RWriteInfo : Option ServerNetInformation) : Prop :=
  ∃ r, RWriteInfo = some r ∧ r.num ≤ serverWriteNum

theorem controlServerInfo_writeServer (s : ServerSystem) {r : ServerNetInformation}
    (hr : r.num ≤ serverWriteNum) :
    ∃ s', controlServerInfo s .writeServerInfo (some r) = some (s', some r) ∧
      s'.stored = writtenServerInfo r ∧ s'.serNetNum = s.serNetNum := by
  obtain ⟨m1, hm1, -⟩ := checkServerInfo_eq s.flash
  obtain ⟨m2, hm2, -⟩ := stored_setSerInfo m1 ServerNetInformation.zero
  obtain ⟨m3, hm3, hst⟩ := stored_setSerInfo m2 (writtenServerInfo r)
  refine ⟨{ s with flash := m3 }, ?_, hst, rfl⟩
  show controlServerList s (stored s.flash) .writeServerInfo (some r) = _
  unfold controlServerList
  rw [hm1, Option.bind_eq_bind, Option.bind_some]
  simp only [if_neg (not_lt.2 hr), hm2, hm3, Option.bind_eq_bind, Option.bind_some]
  rfl

/-- A rejected write still checks the record. -/
theorem controlServerInfo_rejected (s : ServerSystem) {RWriteInfo : Option ServerNetInformation}
    (h : ¬ Accepted RWriteInfo) :
    ∃ s', controlServerInfo s .writeServerInfo RWriteInfo = some (s', RWriteInfo) ∧
      s'.stored = s.stored.checked ∧ s'.serNetNum = s.serNetNum := by
  obtain ⟨m', hm', hst⟩ := checkServerInfo_eq s.flash
  refine ⟨{ s with flash := m' }, ?_, hst, rfl⟩
  show controlServerList s (stored s.flash) .writeServerInfo RWriteInfo = _
  unfold controlServerList
  rw [hm', Option.bind_eq_bind, Option.bind_some]
  cases RWriteInfo with
  | none => rfl
  | some r =>
    have hr : serverWriteNum < r.num := by
      by_contra hle
      exact h ⟨r, rfl, not_lt.1 hle⟩
    simp only [if_pos hr]
    rfl

theorem controlServerInfo_writeNetconfig (s : ServerSystem) (r : ServerNetInformation) :
    ∃ s', controlServerInfo s .writeNetconfigInfo (some r) = some (s', some r) ∧
      s'.stored = { s.stored with netConfig := r.netConfig } := by
  obtain ⟨m', hm', hst⟩ := stored_setSerInfo s.flash { s.stored with netConfig := r.netConfig }
  refine ⟨{ s with flash := m' }, ?_, hst⟩
  show (setSerInfo s.flash { s.stored with netConfig := r.netConfig }).map _ = _
  rw [hm']
  rfl

end Abox.Config
