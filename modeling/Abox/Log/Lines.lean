import Abox.Config.Ipaddr
import Abox.Config.NetFile
import Abox.Log.Itoa
import Abox.Log.Sheet

/-!
# The lines of the network log

Model of `get_each_txt` and `get_log_txt` (`Abox_log.c` lines 341–737). A line is put
together in `log_reason`, which is cleared first; its text is what stands in the
first `line_len` bytes afterwards. `str` is the buffer of `ipaddr_ntoa`.

* `length_get_each_txt_le`: the lines of a record fit into `log_server`.
-/

namespace Abox.Log

open Config (copyTo dotted ethStyle wifiStyle ethWifiStyle dhcpOpen dhcpClose)

/-! ## Parts of a line -/

/-- What `itoa` leaves in a cleared `buf`. -/
def itoaBuf (num radix : BitVec 32) : List Byte := (itoa num (List.replicate 33 0) radix).getD []

/-- The string in `buf` after `itoa(num,buf,10)`. -/
def number (num : BitVec 32) : List Byte := (cstr (itoaBuf num 10)).getD []

/-- A byte of a mac: two characters of `buf` after `itoa(b,buf,16)`, and a blank. -/
def macTxt (b : Byte) : List Byte :=
  let buf := itoaBuf (b.setWidth 32) 16
  (if buf.getD 1 0 = 0 then [0x30, buf.getD 0 0] else buf.take 2) ++ ascii " "

/-- `ipaddr_ntoa` of lwIP (`ip_addr.c` lines 260–312) writes an address to the beginning of its
    buffer of 16 bytes. -/
def ipaddr_ntoa (addr : BitVec 32) (str : List Byte) : List Byte :=
  copyTo str 0 (dotted (addr.extractLsb' 0 8) (addr.extractLsb' 8 8) (addr.extractLsb' 16 8)
    (addr.extractLsb' 24 8) ++ [0])

/-! ## The lines of a record -/

/-- `each_line_name`. -/
inductive EachLine
  | logNumber
  | logTicks
  | correntConnectStyle
  | linkStat
  | errPlace
  | dhcpStat
  | netifStat
  | ipAddress
  | maskAddress
  | gatwayAddress
  | wifiName
  | wifiPassword
  | arpAddrTable
  deriving DecidableEq

/-- The lines in the order of their numbers. -/
def EachLine.all : List EachLine :=
  [.logNumber, .logTicks, .correntConnectStyle, .linkStat, .errPlace, .dhcpStat, .netifStat,
    .ipAddress, .maskAddress, .gatwayAddress, .wifiName, .wifiPassword, .arpAddrTable]

/-- `e_currentConnectStyle`. -/
def nullDisconnenct : Byte := 0
def clientWifiConnect : Byte := 1
def clientEthConnect : Byte := 2

def connectStyleTxt (style : Byte) : List Byte :=
  if style = nullDisconnenct then ascii "disconnect"
  else if style = clientWifiConnect then ascii "wifi connect"
  else if style = clientEthConnect then ascii "ethernet connect"
  else []

/-- `Panel_disconnect`, `Panel_tryconnect` and `Panel_con_eth`. -/
def linkStatTxt (link_stat : BitVec 32) : List Byte :=
  if link_stat = 0 then ascii "Not connected"
  else if link_stat = 1 then ascii "Try connected"
  else if link_stat = 2 then ascii "Connect success"
  else []

/-- `NETWORK_ERROR_RESULT` (`net_config.h` lines 115–126), whose numbers start from 1. -/
def errPlaceTxts : List (List Byte) :=
  [ascii "ethernet network start", ascii "ethernet network sock error",
    ascii "ethernet network connect error", ascii "ethernet network is working",
    ascii "wifi network start", ascii "wifi network ap connect error",
    ascii "wifi network sock error", ascii "wifi network connect error"]

def errPlaceTxt (err_palce : Byte) : List Byte :=
  if err_palce = 0 then ascii "network connect ok"
  else errPlaceTxts.getD (err_palce.toNat - 1) (ascii "network connect ok")

def dhcpStatTxt (stat : Byte) : List Byte :=
  if stat.setWidth 32 = dhcpClose then ascii "close"
  else if stat.setWidth 32 = dhcpOpen then ascii "open"
  else []

/-- A host of the ARP table (lines 534–573). The byte behind the last number of the address is
    skipped. -/
def arpTxt (e : ArpTableInfo) : List Byte :=
  if e.noMac then []
  else
    ascii "ip address: " ++
      ((List.finRange 4).flatMap fun j =>
        number ((e.ip_addr j).setWidth 32) ++ if j.val ≠ 3 then ascii "." else [0]) ++
      ascii "     mac: " ++ ((List.finRange 6).flatMap fun j => macTxt (e.mac j)) ++ ascii "\n"

/-- A line with an address. -/
def addrTxt (title : List Byte) (addr : BitVec 32) (str : List Byte) : List Byte × List Byte :=
  let str := ipaddr_ntoa addr str
  (title ++ str.take 16, str)

/-- The cases of `get_each_txt`, with the buffer of `ipaddr_ntoa`. -/
def EachLog.txt (elog : EachLog) (str : List Byte) : EachLine → List Byte × List Byte
  | .logNumber =>
    (ascii "\n\n/********************/\n" ++ ascii "log numver: " ++
      number (elog.lognum.setWidth 32), str)
  | .logTicks => (ascii "save ticks: " ++ number elog.tick, str)
  | .correntConnectStyle =>
    (ascii "current connect style: " ++ connectStyleTxt elog.currentConnectStyle, str)
  | .linkStat => (ascii "current link stat: " ++ linkStatTxt elog.link_stat, str)
  | .errPlace => (ascii "error place: " ++ errPlaceTxt elog.err_palce, str)
  | .dhcpStat =>
    if elog.currentConnectStyle = clientEthConnect then
      (ascii "DHCP stat: " ++ dhcpStatTxt elog.DHCP_stat, str)
    else ([], str)
  | .netifStat =>
    if elog.currentConnectStyle = clientEthConnect then
      (ascii "netif stat: " ++ number (elog.netif_stat.setWidth 32), str)
    else ([], str)
  | .ipAddress =>
    if elog.currentConnectStyle = clientEthConnect then
      addrTxt (ascii "ip address: ") elog.ip_addr str
    else ([], str)
  | .maskAddress =>
    if elog.currentConnectStyle = clientEthConnect then
      addrTxt (ascii "mask address: ") elog.mask_addr str
    else ([], str)
  | .gatwayAddress =>
    if elog.currentConnectStyle = clientEthConnect then
      addrTxt (ascii "gatway address: ") elog.gatway_addr str
    else ([], str)
  | .wifiName =>
    if elog.currentConnectStyle = clientWifiConnect then
      (ascii "wifi name: " ++ List.ofFn elog.wifiname, str)
    else ([], str)
  -- The name is printed again in the place of the password.
  | .wifiPassword =>
    if elog.currentConnectStyle = clientWifiConnect then
      (ascii "wifi password: " ++ List.ofFn elog.wifiname, str)
    else ([], str)
  | .arpAddrTable =>
    if elog.currentConnectStyle = clientEthConnect then
      (ascii "arp table : \n" ++ ((List.finRange arpTableSize).flatMap fun i =>
        arpTxt (elog.ip_mac_addr i)) ++ ascii "\n", str)
    else ([], str)

/-- `get_each_txt`, of the record number `index`. -/
def get_each_txt (sheet : LogSheet) (line : EachLine) (index : Byte) (str : List Byte) :
    List Byte × List Byte :=
  if h : index.toNat < logRecNum then
    let (txt, str) := (sheet.elog ⟨index.toNat, h⟩).txt str line
    (txt ++ ascii "\n", str)
  else ([], str)

/-- The room that a line takes at most, with its newline. -/
def EachLine.room : EachLine → ℕ
  | .logNumber => 48
  | .logTicks => 24
  | .correntConnectStyle => 40
  | .linkStat => 35
  | .errPlace => 44
  | .dhcpStat => 17
  | .netifStat => 24
  | .ipAddress => 29
  | .maskAddress => 31
  | .gatwayAddress => 33
  | .wifiName => 36
  | .wifiPassword => 40
  | .arpAddrTable => 586

theorem number_eq (num : BitVec 32) : number num = itoaText num 10 := by
  obtain ⟨buf, hitoa, hcstr⟩ :=
    @exists_itoa 10 (by decide) (by decide) num (List.replicate 33 0)
  rw [number, itoaBuf, hitoa, Option.getD_some, hcstr, Option.getD_some]

theorem length_number_le (num : BitVec 32) : (number num).length ≤ 11 := by
  rw [number_eq]
  exact length_itoaText_le num

theorem length_number_byte_le (b : Byte) : (number (b.setWidth 32)).length ≤ 3 := by
  rw [number_eq, itoaText_byte]
  exact Config.length_decimal_byte b

theorem length_macTxt_le (b : Byte) : (macTxt b).length ≤ 3 := by
  unfold macTxt
  dsimp only
  rw [List.length_append]
  split_ifs
  · exact le_rfl
  · have := List.length_take_le 2 (itoaBuf (b.setWidth 32) 16)
    exact Nat.add_le_add_right this 1

/-- Equal bounds of the parts of a text. -/
theorem length_flatMap_le {n k : ℕ} {f : Fin n → List Byte} (h : ∀ i, (f i).length ≤ k) :
    ((List.finRange n).flatMap f).length ≤ n * k := by
  rw [List.length_flatMap]
  have hsum := List.sum_le_card_nsmul ((List.finRange n).map fun i => (f i).length) k (by
    intro x hx
    obtain ⟨i, -, rfl⟩ := List.mem_map.1 hx
    exact h i)
  simpa using hsum

theorem length_arpTxt_le (e : ArpTableInfo) : (arpTxt e).length ≤ 57 := by
  have hnumbers : ((List.finRange 4).flatMap fun j =>
      number ((e.ip_addr j).setWidth 32) ++ if j.val ≠ 3 then ascii "." else [0]).length ≤
        4 * 4 := by
    refine length_flatMap_le fun j => ?_
    have := length_number_byte_le (e.ip_addr j)
    rw [List.length_append]
    split_ifs
    · exact Nat.add_le_add_right this 1
    · exact Nat.add_le_add_right this 1
  have hmac := length_flatMap_le fun j => length_macTxt_le (e.mac j)
  unfold arpTxt
  split_ifs
  · exact Nat.zero_le _
  · simp only [List.length_append]
    have h1 : (ascii "ip address: ").length = 12 := rfl
    have h2 : (ascii "     mac: ").length = 10 := rfl
    have h3 : (ascii "\n").length = 1 := rfl
    omega

theorem length_connectStyleTxt_le (style : Byte) : (connectStyleTxt style).length ≤ 16 := by
  unfold connectStyleTxt
  split_ifs <;> decide

theorem length_linkStatTxt_le (link_stat : BitVec 32) : (linkStatTxt link_stat).length ≤ 15 := by
  unfold linkStatTxt
  split_ifs <;> decide

theorem length_errPlaceTxt_le (err_palce : Byte) : (errPlaceTxt err_palce).length ≤ 30 := by
  have htable : ∀ txt ∈ errPlaceTxts, txt.length ≤ 30 := by decide
  unfold errPlaceTxt
  split_ifs
  · decide
  · obtain h | h := Nat.lt_or_ge (err_palce.toNat - 1) errPlaceTxts.length
    · rw [List.getD_eq_getElem _ _ h]
      exact htable _ (List.getElem_mem h)
    · rw [List.getD_eq_default _ _ h]
      decide

theorem length_dhcpStatTxt_le (stat : Byte) : (dhcpStatTxt stat).length ≤ 5 := by
  unfold dhcpStatTxt
  split_ifs <;> decide

theorem length_addrTxt_le (title : List Byte) (addr : BitVec 32) (str : List Byte) :
    (addrTxt title addr str).1.length ≤ title.length + 16 := by
  unfold addrTxt
  dsimp only
  rw [List.length_append]
  exact Nat.add_le_add_left (List.length_take_le _ _) _

/-- A line leaves room for its newline. -/
theorem length_txt_lt (elog : EachLog) (str : List Byte) (line : EachLine) :
    (elog.txt str line).1.length < line.room := by
  cases line with
  | logNumber =>
    have := length_number_byte_le elog.lognum
    simp [EachLog.txt, EachLine.room, ascii]
    omega
  | logTicks =>
    have := length_number_le elog.tick
    simp [EachLog.txt, EachLine.room, ascii]
    omega
  | correntConnectStyle =>
    have := length_connectStyleTxt_le elog.currentConnectStyle
    simp [EachLog.txt, EachLine.room, ascii]
    omega
  | linkStat =>
    have := length_linkStatTxt_le elog.link_stat
    simp [EachLog.txt, EachLine.room, ascii]
    omega
  | errPlace =>
    have := length_errPlaceTxt_le elog.err_palce
    simp [EachLog.txt, EachLine.room, ascii]
    omega
  | dhcpStat =>
    have := length_dhcpStatTxt_le elog.DHCP_stat
    simp only [EachLog.txt, EachLine.room]
    split_ifs <;> simp [ascii]
    omega
  | netifStat =>
    have := length_number_le (elog.netif_stat.setWidth 32)
    simp only [EachLog.txt, EachLine.room]
    split_ifs <;> simp [ascii]
    omega
  | ipAddress =>
    have := length_addrTxt_le (ascii "ip address: ") elog.ip_addr str
    simp only [EachLog.txt, EachLine.room]
    split_ifs
    · exact Nat.lt_succ_of_le this
    · exact Nat.succ_pos _
  | maskAddress =>
    have := length_addrTxt_le (ascii "mask address: ") elog.mask_addr str
    simp only [EachLog.txt, EachLine.room]
    split_ifs
    · exact Nat.lt_succ_of_le this
    · exact Nat.succ_pos _
  | gatwayAddress =>
    have := length_addrTxt_le (ascii "gatway address: ") elog.gatway_addr str
    simp only [EachLog.txt, EachLine.room]
    split_ifs
    · exact Nat.lt_succ_of_le this
    · exact Nat.succ_pos _
  | wifiName =>
    simp only [EachLog.txt, EachLine.room]
    split_ifs <;> simp [ascii]
  | wifiPassword =>
    simp only [EachLog.txt, EachLine.room]
    split_ifs <;> simp [ascii]
  | arpAddrTable =>
    have := length_flatMap_le fun i => length_arpTxt_le (elog.ip_mac_addr i)
    have hsize : arpTableSize = 10 := rfl
    have htitle : (ascii "arp table : \n").length = 13 := rfl
    have hline : (ascii "\n").length = 1 := rfl
    simp only [EachLog.txt, EachLine.room]
    split_ifs
    · simp only [List.length_append]
      omega
    · exact Nat.succ_pos _

/-- Each line of a record fits into its room. -/
theorem length_get_each_txt_le (sheet : LogSheet) (line : EachLine) (index : Byte)
    (str : List Byte) : (get_each_txt sheet line index str).1.length ≤ line.room := by
  unfold get_each_txt
  split_ifs with h
  · have := length_txt_lt (sheet.elog ⟨index.toNat, h⟩) str line
    simp [ascii]
    omega
  · exact Nat.zero_le _

/-- The rooms of all lines together are not more than `LOG_SERVER_BUFSIZE`. -/
theorem sum_room_le : (EachLine.all.map EachLine.room).sum ≤ 1024 := by decide

/-! ## The lines of the sheet -/

/-- `log_txt_line_name`. -/
inductive LogLine
  | modId
  | softVer
  | configLinkStyle
  | logNum
  | macAddr
  | modeStyle
  | recentUpdataNum
  | serverNetInfo
  deriving DecidableEq

def LogLine.all : List LogLine :=
  [.modId, .softVer, .configLinkStyle, .logNum, .macAddr, .modeStyle, .recentUpdataNum,
    .serverNetInfo]

def configLinkTxt (style : BitVec 32) : List Byte :=
  if style = ethStyle then ascii "ethernet"
  else if style = wifiStyle then ascii "wifi"
  else if style = ethWifiStyle then ascii "ethernet or wifi"
  else []

/-- `MOD_DEVICE_TPYE` (`abox.h` lines 37–43), without `DEV_MODBUS_TCP_CLIENT`. -/
def modeStyleTxt (mod_type : Byte) : List Byte :=
  if mod_type = 0 then ascii "default"
  else if mod_type = 1 then ascii "modbus TCP server"
  else if mod_type = 3 then ascii "MQTT client"
  else if mod_type = 4 then ascii "ssl/tsl is open"
  else []

def serverTxt (i : Fin Config.serverNumMax) (info : Config.NetInfo) : List Byte :=
  ascii "\nweb[" ++ number (BitVec.ofNat 32 i) ++ ascii "]: " ++ List.ofFn info.seraddr ++
    ascii "  port: " ++ List.ofFn info.serport

/-- `get_log_txt`. -/
def get_log_txt (sheet : LogSheet) (line : LogLine) : List Byte :=
  let info := sheet.log_info
  (match line with
    | .modId => ascii "mod id: " ++ number info.mod_id
    | .softVer => ascii "soft version: " ++ number info.soft_ver
    | .configLinkStyle => ascii "connect link style: " ++ configLinkTxt info.config_link_stlye
    | .logNum => ascii "Number of records: " ++ number info.reclognum
    | .macAddr => ascii "mac: " ++ (List.finRange 6).flatMap fun i => macTxt (info.dev_mac i)
    | .modeStyle => ascii "mode style: " ++ modeStyleTxt info.mod_type
    | .recentUpdataNum =>
      ascii "recent updata number: " ++ number (info.recent_update_num.setWidth 32)
    | .serverNetInfo =>
      ascii "server net config: " ++
        (List.finRange Config.serverNumMax).flatMap fun i => serverTxt i (info.netInfo i)) ++
    ascii "\n"

/-- The room that a line of the sheet takes at most. -/
def LogLine.room : LogLine → ℕ
  | .modId => 20
  | .softVer => 26
  | .configLinkStyle => 37
  | .logNum => 31
  | .macAddr => 24
  | .modeStyle => 30
  | .recentUpdataNum => 34
  | .serverNetInfo => 275

theorem length_configLinkTxt_le (style : BitVec 32) : (configLinkTxt style).length ≤ 16 := by
  unfold configLinkTxt
  split_ifs <;> decide

theorem length_modeStyleTxt_le (mod_type : Byte) : (modeStyleTxt mod_type).length ≤ 17 := by
  unfold modeStyleTxt
  split_ifs <;> decide

theorem length_serverTxt_le (i : Fin Config.serverNumMax) (info : Config.NetInfo) :
    (serverTxt i info).length ≤ 51 := by
  have := length_number_le (BitVec.ofNat 32 i)
  simp [serverTxt, ascii]
  omega

/-- Each line of the sheet fits into its room. -/
theorem length_get_log_txt_le (sheet : LogSheet) (line : LogLine) :
    (get_log_txt sheet line).length ≤ line.room := by
  have hline : (ascii "\n").length = 1 := rfl
  cases line with
  | modId =>
    have := length_number_le sheet.log_info.mod_id
    simp [get_log_txt, LogLine.room, ascii]
    omega
  | softVer =>
    have := length_number_le sheet.log_info.soft_ver
    simp [get_log_txt, LogLine.room, ascii]
    omega
  | configLinkStyle =>
    have := length_configLinkTxt_le sheet.log_info.config_link_stlye
    simp [get_log_txt, LogLine.room, ascii]
    omega
  | logNum =>
    have := length_number_le sheet.log_info.reclognum
    simp [get_log_txt, LogLine.room, ascii]
    omega
  | macAddr =>
    have hmac := length_flatMap_le fun i => length_macTxt_le (sheet.log_info.dev_mac i)
    have htitle : (ascii "mac: ").length = 5 := rfl
    simp only [get_log_txt, LogLine.room, List.length_append]
    omega
  | modeStyle =>
    have := length_modeStyleTxt_le sheet.log_info.mod_type
    simp [get_log_txt, LogLine.room, ascii]
    omega
  | recentUpdataNum =>
    have := length_number_le (sheet.log_info.recent_update_num.setWidth 32)
    simp [get_log_txt, LogLine.room, ascii]
    omega
  | serverNetInfo =>
    have hserver := length_flatMap_le fun i => length_serverTxt_le i (sheet.log_info.netInfo i)
    have hsize : Config.serverNumMax = 5 := rfl
    have htitle : (ascii "server net config: ").length = 19 := rfl
    simp only [get_log_txt, LogLine.room, List.length_append]
    omega

/-- So do all of them in `log_server`. -/
theorem length_flatMap_get_log_txt_le (sheet : LogSheet) :
    (LogLine.all.flatMap (get_log_txt sheet)).length ≤ 1024 := by
  rw [List.length_flatMap]
  exact (List.sum_le_sum fun line _ => length_get_log_txt_le sheet line).trans (by decide)

end Abox.Log
