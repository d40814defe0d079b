import Abox.Radio.Cbox
import Abox.Radio.Freq
import Abox.Update.Rupdata

/-!
# Frames for the server

Model of the functions that build a frame for the server: `pack_ser_heart`
(`Abox/src/Abox_exchange.c` lines 205–241), `sub_PackRegCmd`
(`sub-G/sub_G_init.c` lines 154–188), `sendFreqPack` (`Abox/src/sub_G_A.c` lines
54–83), `send_log_data` (`Abox/src/Abox_log.c` lines 994–1032) and
`Abox_send_pack` (`Abox_exchange.c` lines 61–74); and of the way a frame takes
from there, `sendNormalData` and `tcpSend` (`Abox/src/client.c` lines 342–349
and 564–602).

A frame is handed to `sendDataToServer` as a buffer and a length.

* `frames_wellFormed`: every frame that fits is well formed, decodes to what it
  was built from, and is sent whole.
-/

namespace Abox.Server

open Radio Update

/-- `CSOH`. -/
def csoh : Byte := 0x23

/-- `TCMD_1`, `TCMD_21`, `TCMD_110` and `TCMD_112` (`mydef.h` lines 93–114). -/
def tcmd1 : Byte := 1
def tcmd21 : Byte := 21
def tcmd110 : Byte := 110
def tcmd112 : Byte := 112

/-- The bytes `bs` are copied to `buf + off`. -/
def memcpy (buf : List Byte) (off : ℕ) (bs : List Byte) : List Byte :=
  buf.take off ++ bs ++ buf.drop (off + bs.length)

/-! ## The functions -/

/-- `pack_ser_heart`: the ids of all online Cboxes. -/
def pack_ser_heart (sysSetup : List Byte) (s : AboxInformation) : List Byte × ℕ :=
  let packcmd : StPackCmd :=
    { soh := csoh
      cmd := tcmd1
      id := setupAppId sysSetup
      len := BitVec.ofNat 16 (s.cboxOnlineNum * 4) }
  let sendbuf := memcpy (List.replicate buffLen 0) 0 (packcmdBytes packcmd)
  let sendbuf := (List.range s.cboxOnlineNum).foldl (fun sendbuf i =>
    memcpy sendbuf (sizeofStPackCmd + 4 * i)
      (Layout.word.encode ((s.cboxInfo i).devidCollection ⟨0, devidTypeNum_pos⟩))) sendbuf
  let crc := ModbusCrc16 (readN sendbuf (sizeofStPackCmd + packcmd.len.toNat))
  (memcpy sendbuf (sizeofStPackCmd + packcmd.len.toNat) (crcBytes crc),
    sizeofStPackCmd + packcmd.len.toNat + 2)

/-- `TCMD_21_Info` (`mydef.h` lines 308–313). -/
structure Tcmd21Info where
  sw_ver : BitVec 16
  dev_id : BitVec 32
  reserved1 : BitVec 32
  reserved2 : BitVec 32

def Tcmd21Info.toBytes (c : Tcmd21Info) : List Byte :=
  Layout.half.encode c.sw_ver ++ Layout.word.encode c.dev_id ++ Layout.word.encode c.reserved1 ++
    Layout.word.encode c.reserved2

/-- `sizeof(TCMD_21_Info)`. -/
def sizeofTcmd21Info : ℕ := 14

/-- `cmd_21` in `sub_PackRegCmd`. -/
def registration (sysSetup : List Byte) (dev_id : BitVec 32) : Tcmd21Info :=
  { sw_ver := (setupVer sysSetup).setWidth 16, dev_id := dev_id, reserved1 := 0, reserved2 := 0 }

/-- `sub_PackRegCmd`, `none` if nothing is sent; `dev_id` is `Cdma_Info.dev_id`. -/
def sub_PackRegCmd (sysSetup : List Byte) (dev_id : BitVec 32) : Option (List Byte × ℕ) :=
  if setupVer sysSetup = 0 then none
  else
    let pp : StPackCmd :=
      { soh := csoh
        id := setupAppId sysSetup
        cmd := tcmd21
        len := BitVec.ofNat 16 sizeofTcmd21Info }
    let buff := memcpy (List.replicate buffLen 0) 0 (packcmdBytes pp)
    let buff := memcpy buff sizeofStPackCmd (registration sysSetup dev_id).toBytes
    let crc := ModbusCrc16 (readN buff (sizeofStPackCmd + sizeofTcmd21Info))
    some (memcpy buff (sizeofStPackCmd + sizeofTcmd21Info) (crcBytes crc),
      sizeofStPackCmd + sizeofTcmd21Info + 2)

/-- `aboxInfo.freqInfo.freqCollect` as the bytes it is in memory. -/
def freqCollectBytes (freqInfo : FreqInformation) : List Byte :=
  (Layout.half.array rfFreqControlInte8Num).encode freqInfo.freqCollect

/-- `sendFreqPack`. The two bytes copied from `Cdma_Info.freq_num` on are this
    field and the next one, `serNetNum`. -/
def sendFreqPack (sysSetup : List Byte) (freq_num serNetNum : Byte) (freqInfo : FreqInformation) :
    List Byte × ℕ :=
  let stpack : StPackCmd :=
    { soh := csoh
      id := setupAppId sysSetup
      cmd := tcmd110
      len := 4 + 2 * freqInfo.freqSaveNum }
  let pack := memcpy (List.replicate 100 0) 0 (packcmdBytes stpack)
  let len := sizeofStPackCmd
  let pack := memcpy pack len [freq_num, serNetNum]
  let len := len + 2
  let pack := memcpy pack len (Layout.half.encode freqInfo.freqSaveNum)
  let len := len + 2
  let pack := memcpy pack len (readN (freqCollectBytes freqInfo) (2 * freqInfo.freqSaveNum.toNat))
  let len := len + 2 * freqInfo.freqSaveNum.toNat
  let crc := ModbusCrc16 (readN pack len)
  (memcpy pack len (crcBytes crc), len + 2)

/-- `TCMD_112_Info` (`mydef.h` lines 358–370). -/
structure Tcmd112Info where
  mark : BitVec 16
  totalPackLen : BitVec 32
  pcaklen : BitVec 16

def Tcmd112Info.toBytes (c : Tcmd112Info) : List Byte :=
  Layout.half.encode c.mark ++ Layout.word.encode c.totalPackLen ++ Layout.half.encode c.pcaklen

/-- `sizeof(TCMD_112_Info)`. -/
def sizeofTcmd112Info : ℕ := 8

/-- `LOG_SERVER_BUFSIZE`. -/
def logServerBufsize : ℕ := 1024

/-- `LOG_SHEET_CONFIG`. -/
def logSheetConfig : BitVec 16 := 3

/-- `tcmd_122` in `send_log_data`. -/
def logHead (len : BitVec 16) : Tcmd112Info :=
  { mark := logSheetConfig, totalPackLen := 0xffffffff, pcaklen := len }

/-- `send_log_data`, `none` if nothing is sent. -/
def send_log_data (sysSetup : List Byte) (data : List Byte) (len : BitVec 16) :
    Option (List Byte × ℕ) :=
  if len = 0 then none
  else
    let packcmd : StPackCmd :=
      { soh := csoh
        cmd := tcmd112
        id := setupAppId sysSetup
        len := BitVec.ofNat 16 sizeofTcmd112Info + len }
    let log_len := sizeofStPackCmd
    let log_buf := memcpy (List.replicate logServerBufsize 0) 0 (packcmdBytes packcmd)
    let log_buf := memcpy log_buf log_len (logHead len).toBytes
    let log_len := log_len + sizeofTcmd112Info
    let log_buf := memcpy log_buf log_len (readN data len.toNat)
    let log_len := log_len + len.toNat
    let crc := ModbusCrc16 (readN log_buf log_len)
    some (memcpy log_buf log_len (crcBytes crc), log_len + 2)

/-- `Abox_send_pack`. A write of the checksum behind the end of `send` is ignored. -/
def Abox_send_pack (send : List Byte) (len : BitVec 16) : List Byte × ℕ :=
  let crc := ModbusCrc16 (readN send len.toNat)
  ((send.set len.toNat (crc.extractLsb' 0 8)).set (len.toNat + 1) (crc.extractLsb' 8 8),
    (len + 2).toNat)

/-- `sendNormalData`: the message that is put into `climqSend`. -/
def sendNormalData (sendBuf : List Byte) (len : ℕ) : Option (List Byte) :=
  if len = 0 ∨ buffLen < len then none else some (readN sendBuf len)

/-- A pass of `tcpSend` with a message in `sbuf`: the bytes that are sent. -/
def tcpSend (sbuf : List Byte) : Option (List Byte) :=
  let len := (StPackCmd.ofBytes sbuf).frameLen
  if buffLen < len then none else some (readN sbuf len)

/-! ## Well-formed frames -/

/-- The first `f.2` bytes of `f.1` are a frame with the given command, id and
    payload, and `tcpSend` sends just them, whatever is behind the message. -/
structure FrameOf (f : List Byte × ℕ) (cmd : Byte) (id : BitVec 32) (payload : List Byte) :
    Prop where
  soh : (StPackCmd.ofBytes (readN f.1 f.2)).soh = csoh
  len : (StPackCmd.ofBytes (readN f.1 f.2)).len.toNat = payload.length
  total : f.2 = 10 + payload.length
  crc : ModbusCrc16 (readN f.1 f.2) = 0
  cmd : (StPackCmd.ofBytes (readN f.1 f.2)).cmd = cmd
  id : (StPackCmd.ofBytes (readN f.1 f.2)).id = id
  payload : ((readN f.1 f.2).drop sizeofStPackCmd).take payload.length = payload
  queued : sendNormalData f.1 f.2 = some (readN f.1 f.2)
  sent : ∀ rest, tcpSend (readN f.1 f.2 ++ rest) = some (readN f.1 f.2)

/-- Its header is decoded from the front of a frame. -/
theorem ofBytes_packcmdBytes (packcmd : StPackCmd) (rest : List Byte) :
    StPackCmd.ofBytes (packcmdBytes packcmd ++ rest) = packcmd := by
  obtain ⟨soh, cmd, id, len⟩ := packcmd
  have hid : u32At (packcmdBytes ⟨soh, cmd, id, len⟩ ++ rest) 2 = id := Layout.word.decode_encode id
  have hlen : u16At (packcmdBytes ⟨soh, cmd, id, len⟩ ++ rest) 6 = len :=
    Layout.half.decode_encode len
  show StPackCmd.mk soh cmd _ _ = _
  rw [hid, hlen]

theorem length_packcmdBytes (packcmd : StPackCmd) :
    (packcmdBytes packcmd).length = sizeofStPackCmd := rfl

theorem readN_of_prefix {bs buf : List Byte} (h : bs <+: buf) : readN buf bs.length = bs := by
  rw [readN_of_le h.length_le]
  exact (List.prefix_iff_eq_take.1 h).symm

/-- A buffer that starts with header, payload and checksum. -/
theorem frameOf_of_prefix (packcmd : StPackCmd) {buf payload : List Byte}
    (hsoh : packcmd.soh = csoh) (hlen : packcmd.len.toNat = payload.length)
    (hfit : 10 + payload.length ≤ buffLen)
    (hbuf : packcmdBytes packcmd ++ payload ++
      crcBytes (ModbusCrc16 (packcmdBytes packcmd ++ payload)) <+: buf) :
    FrameOf (buf, 10 + payload.length) packcmd.cmd packcmd.id payload := by
  set frame := packcmdBytes packcmd ++ payload ++
    crcBytes (ModbusCrc16 (packcmdBytes packcmd ++ payload)) with hframe
  have htotal : frame.length = 10 + payload.length := by
    rw [hframe, List.length_append, List.length_append, length_packcmdBytes]
    show 8 + payload.length + 2 = 10 + payload.length
    omega
  have hread : readN buf (10 + payload.length) = frame := by
    rw [← htotal]
    exact readN_of_prefix hbuf
  have hhead : ∀ rest, StPackCmd.ofBytes (frame ++ rest) = packcmd := by
    intro rest
    rw [hframe, List.append_assoc, List.append_assoc]
    exact ofBytes_packcmdBytes packcmd _
  have hhead' : StPackCmd.ofBytes frame = packcmd := by
    rw [← List.append_nil frame]
    exact hhead []
  have hbuffLen : buffLen = 1024 := rfl
  refine ⟨?_, ?_, rfl, ?_, ?_, ?_, ?_, ?_, ?_⟩
  · rw [hread, hhead', hsoh]
  · rw [hread, hhead', hlen]
  · rw [hread]
    exact ModbusCrc16_append _
  · rw [hread, hhead']
  · rw [hread, hhead']
  · rw [hread, hframe, List.append_assoc, ← length_packcmdBytes packcmd, List.drop_left,
      List.take_left]
  · unfold sendNormalData
    rw [if_neg (by omega)]
  · intro rest
    have hframeLen : packcmd.frameLen = frame.length := by
      unfold StPackCmd.frameLen
      rw [htotal]
      bv_omega
    unfold tcpSend
    rw [hread, hhead rest]
    show (if buffLen < packcmd.frameLen then none else _) = _
    rw [if_neg (by omega), hframeLen, readN_of_prefix (List.prefix_append frame rest)]

/-- What is copied behind a prefix of a buffer extends it. -/
theorem prefix_memcpy {bs buf : List Byte} {off : ℕ} (h : bs <+: buf) (hoff : bs.length = off)
    (cs : List Byte) : bs ++ cs <+: memcpy buf off cs := by
  subst hoff
  unfold memcpy
  rw [← List.prefix_iff_eq_take.1 h]
  exact List.prefix_append _ _

/-- The checksum goes behind header and payload. -/
theorem prefix_crc {bs buf : List Byte} {off : ℕ} (h : bs <+: buf) (hoff : bs.length = off) :
    bs ++ crcBytes (ModbusCrc16 bs) <+:
      memcpy buf off (crcBytes (ModbusCrc16 (readN buf off))) := by
  rw [show readN buf off = bs by rw [← hoff]; exact readN_of_prefix h]
  exact prefix_memcpy h hoff _

theorem prefix_header (packcmd : StPackCmd) (buf : List Byte) :
    packcmdBytes packcmd <+: memcpy buf 0 (packcmdBytes packcmd) :=
  prefix_memcpy (List.nil_prefix : [] <+: buf) rfl _

/-! ## The frames -/

/-- The payload of a heartbeat: the ids of the first `n` Cboxes. -/
def heartIds (s : AboxInformation) (n : ℕ) : List Byte :=
  (List.range n).flatMap fun i =>
    Layout.word.encode ((s.cboxInfo i).devidCollection ⟨0, devidTypeNum_pos⟩)

theorem heartIds_succ (s : AboxInformation) (n : ℕ) : heartIds s (n + 1) =
    heartIds s n ++ Layout.word.encode ((s.cboxInfo n).devidCollection ⟨0, devidTypeNum_pos⟩) := by
  unfold heartIds
  rw [List.range_succ, List.flatMap_append, List.flatMap_singleton]

theorem length_heartIds (s : AboxInformation) (n : ℕ) : (heartIds s n).length = 4 * n := by
  induction n with
  | zero => rfl
  | succ n ih =>
    rw [heartIds_succ, List.length_append, ih, Layout.word.length_encode]
    rfl

/-- After `n` passes of the loop the first `n` ids stand behind the header. -/
theorem prefix_heartIds {header buf : List Byte} (s : AboxInformation) (h : header <+: buf)
    (hlen : header.length = sizeofStPackCmd) (n : ℕ) :
    header ++ heartIds s n <+: (List.range n).foldl (fun sendbuf i =>
      memcpy sendbuf (sizeofStPackCmd + 4 * i)
        (Layout.word.encode ((s.cboxInfo i).devidCollection ⟨0, devidTypeNum_pos⟩))) buf := by
  induction n with
  | zero =>
    rw [show heartIds s 0 = [] from rfl, List.append_nil]
    exact h
  | succ n ih =>
    rw [List.range_succ, List.foldl_append, heartIds_succ, ← List.append_assoc]
    apply prefix_memcpy ih
    rw [List.length_append, hlen, length_heartIds]

theorem frameOf_pack_ser_heart (sysSetup : List Byte) {s : AboxInformation}
    (hn : s.cboxOnlineNum ≤ cboxMaxNum) :
    FrameOf (pack_ser_heart sysSetup s) tcmd1 (setupAppId sysSetup)
      (heartIds s s.cboxOnlineNum) := by
  have hmax : cboxMaxNum = 50 := rfl
  set packcmd : StPackCmd :=
    { soh := csoh
      cmd := tcmd1
      id := setupAppId sysSetup
      len := BitVec.ofNat 16 (s.cboxOnlineNum * 4) } with hpackcmd
  have hlen : packcmd.len.toNat = (heartIds s s.cboxOnlineNum).length := by
    rw [length_heartIds, hpackcmd]
    show (BitVec.ofNat 16 (s.cboxOnlineNum * 4)).toNat = _
    rw [BitVec.toNat_ofNat]
    omega
  have hids := prefix_heartIds s (prefix_header packcmd (List.replicate buffLen 0)) rfl
    s.cboxOnlineNum
  have hoff : (packcmdBytes packcmd ++ heartIds s s.cboxOnlineNum).length =
      sizeofStPackCmd + packcmd.len.toNat := by
    rw [List.length_append, length_packcmdBytes, hlen]
  have hheart := frameOf_of_prefix packcmd rfl hlen (by rw [length_heartIds]; show _ ≤ 1024; omega)
    (prefix_crc hids hoff)
  have htotal : sizeofStPackCmd + packcmd.len.toNat + 2 =
      10 + (heartIds s s.cboxOnlineNum).length := by
    rw [hlen]
    show 8 + _ + 2 = _
    omega
  rw [← htotal] at hheart
  exact hheart

theorem frameOf_sub_PackRegCmd {sysSetup : List Byte} (dev_id : BitVec 32)
    (h : setupVer sysSetup ≠ 0) :
    ∃ f, sub_PackRegCmd sysSetup dev_id = some f ∧
      FrameOf f tcmd21 (setupAppId sysSetup) (registration sysSetup dev_id).toBytes := by
  set pp : StPackCmd :=
    { soh := csoh
      id := setupAppId sysSetup
      cmd := tcmd21
      len := BitVec.ofNat 16 sizeofTcmd21Info }
  have hpayload := prefix_memcpy (prefix_header pp (List.replicate buffLen 0)) rfl
    (registration sysSetup dev_id).toBytes
  have hfit : 10 + (registration sysSetup dev_id).toBytes.length ≤ buffLen :=
    show 10 + 14 ≤ 1024 by decide
  exact ⟨_, if_neg h, frameOf_of_prefix pp rfl rfl hfit (prefix_crc hpayload rfl)⟩

/-- The payload of a frequency pack. -/
def freqPayload (freq_num serNetNum : Byte) (freqInfo : FreqInformation) : List Byte :=
  [freq_num, serNetNum] ++ Layout.half.encode freqInfo.freqSaveNum ++
    readN (freqCollectBytes freqInfo) (2 * freqInfo.freqSaveNum.toNat)

theorem length_freqPayload (freq_num serNetNum : Byte) (freqInfo : FreqInformation) :
    (freqPayload freq_num serNetNum freqInfo).length = 4 + 2 * freqInfo.freqSaveNum.toNat := by
  unfold freqPayload
  rw [List.length_append, List.length_append, length_readN]
  rfl

/-- The pack of `sendFreqPack` has room for 43 entries. -/
theorem frameOf_sendFreqPack (sysSetup : List Byte) (freq_num serNetNum : Byte)
    {freqInfo : FreqInformation} (h : freqInfo.freqSaveNum.toNat ≤ 43) :
    FrameOf (sendFreqPack sysSetup freq_num serNetNum freqInfo) tcmd110 (setupAppId sysSetup)
      (freqPayload freq_num serNetNum freqInfo) := by
  have hsize := length_freqPayload freq_num serNetNum freqInfo
  set stpack : StPackCmd :=
    { soh := csoh
      id := setupAppId sysSetup
      cmd := tcmd110
      len := 4 + 2 * freqInfo.freqSaveNum } with hstpack
  have hlen : stpack.len.toNat = (freqPayload freq_num serNetNum freqInfo).length := by
    rw [hsize, hstpack]
    show (4 + 2 * freqInfo.freqSaveNum : BitVec 16).toNat = _
    bv_omega
  have h1 := prefix_memcpy (prefix_header stpack (List.replicate 100 0)) rfl [freq_num, serNetNum]
  have h2 := prefix_memcpy h1 rfl (Layout.half.encode freqInfo.freqSaveNum)
  have h3 := prefix_memcpy h2 rfl
    (readN (freqCollectBytes freqInfo) (2 * freqInfo.freqSaveNum.toNat))
  have hpayload : packcmdBytes stpack ++ [freq_num, serNetNum] ++
      Layout.half.encode freqInfo.freqSaveNum ++
      readN (freqCollectBytes freqInfo) (2 * freqInfo.freqSaveNum.toNat) =
      packcmdBytes stpack ++ freqPayload freq_num serNetNum freqInfo := by
    unfold freqPayload
    rw [List.append_assoc, List.append_assoc, List.append_assoc]
  rw [hpayload] at h3
  have hoff : (packcmdBytes stpack ++ freqPayload freq_num serNetNum freqInfo).length =
      sizeofStPackCmd + 2 + 2 + 2 * freqInfo.freqSaveNum.toNat := by
    rw [List.length_append, hsize, length_packcmdBytes]
    omega
  have hfreq := frameOf_of_prefix stpack rfl hlen (by rw [hsize]; show _ ≤ 1024; omega)
    (prefix_crc h3 hoff)
  have htotal : sizeofStPackCmd + 2 + 2 + 2 * freqInfo.freqSaveNum.toNat + 2 =
      10 + (freqPayload freq_num serNetNum freqInfo).length := by
    rw [hsize]
    show 8 + 2 + 2 + _ + 2 = _
    omega
  rw [← htotal] at hfreq
  exact hfreq

theorem frameOf_send_log_data (sysSetup data : List Byte) {len : BitVec 16} (h0 : len ≠ 0)
    (h : 18 + len.toNat ≤ logServerBufsize) :
    ∃ f, send_log_data sysSetup data len = some f ∧
      FrameOf f tcmd112 (setupAppId sysSetup) ((logHead len).toBytes ++ readN data len.toNat) := by
  have hbuf : logServerBufsize = 1024 := rfl
  have hsize : ((logHead len).toBytes ++ readN data len.toNat).length = 8 + len.toNat := by
    rw [List.length_append, length_readN]
    rfl
  set packcmd : StPackCmd :=
    { soh := csoh
      cmd := tcmd112
      id := setupAppId sysSetup
      len := BitVec.ofNat 16 sizeofTcmd112Info + len } with hpackcmd
  have hlen : packcmd.len.toNat = ((logHead len).toBytes ++ readN data len.toNat).length := by
    rw [hsize, hpackcmd]
    show (8 + len : BitVec 16).toNat = _
    bv_omega
  have h1 := prefix_memcpy (prefix_header packcmd (List.replicate logServerBufsize 0)) rfl
    (logHead len).toBytes
  have h2 := prefix_memcpy h1 rfl (readN data len.toNat)
  rw [List.append_assoc] at h2
  have hoff : (packcmdBytes packcmd ++ ((logHead len).toBytes ++ readN data len.toNat)).length =
      sizeofStPackCmd + sizeofTcmd112Info + len.toNat := by
    rw [List.length_append, hsize, length_packcmdBytes]
    show 8 + (8 + len.toNat) = 8 + 8 + len.toNat
    omega
  have hlog := frameOf_of_prefix packcmd rfl hlen (by rw [hsize]; show _ ≤ 1024; omega)
    (prefix_crc h2 hoff)
  have htotal : sizeofStPackCmd + sizeofTcmd112Info + len.toNat + 2 =
      10 + ((logHead len).toBytes ++ readN data len.toNat).length := by
    rw [hsize]
    show 8 + 8 + _ + 2 = _
    omega
  rw [← htotal] at hlog
  exact ⟨_, if_neg h0, hlog⟩

/-- Two bytes are set behind a prefix of a buffer. -/
theorem prefix_set {bs buf : List Byte} (h : bs <+: buf) (hroom : bs.length + 2 ≤ buf.length)
    (b c : Byte) : bs ++ [b, c] <+: (buf.set bs.length b).set (bs.length + 1) c := by
  obtain ⟨t, rfl⟩ := h
  rw [List.length_append] at hroom
  obtain ⟨x, y, t, rfl⟩ : ∃ x y t', t = x :: y :: t' := by
    rcases t with - | ⟨x, - | ⟨y, t⟩⟩
    · simp at hroom
    · simp at hroom
    · exact ⟨x, y, t, rfl⟩
  refine ⟨t, ?_⟩
  rw [List.set_append_right _ _ le_rfl, Nat.sub_self, List.set_append_right _ _ (by omega),
    Nat.add_sub_cancel_left, List.append_assoc]
  rfl

theorem frameOf_Abox_send_pack {packcmd : StPackCmd} {payload send : List Byte}
    (hsoh : packcmd.soh = csoh) (hlen : packcmd.len.toNat = payload.length)
    (hsend : packcmdBytes packcmd ++ payload <+: send) (hroom : 10 + payload.length ≤ send.length)
    (hfit : 10 + payload.length ≤ buffLen) :
    FrameOf (Abox_send_pack send (BitVec.ofNat 16 (sizeofStPackCmd + payload.length)))
      packcmd.cmd packcmd.id payload := by
  have hbuffLen : buffLen = 1024 := rfl
  have hsize : sizeofStPackCmd = 8 := rfl
  have hnat : (BitVec.ofNat 16 (sizeofStPackCmd + payload.length)).toNat =
      (packcmdBytes packcmd ++ payload).length := by
    rw [List.length_append, length_packcmdBytes, BitVec.toNat_ofNat]
    omega
  have htotal : (BitVec.ofNat 16 (sizeofStPackCmd + payload.length) + 2).toNat =
      10 + payload.length := by
    bv_omega
  unfold Abox_send_pack
  rw [hnat, htotal, readN_of_prefix hsend]
  apply frameOf_of_prefix packcmd hsoh hlen hfit
  apply prefix_set hsend
  rw [List.length_append, length_packcmdBytes]
  omega

/-- Every frame for the server that fits is well formed, decodes to the id, the
    command and the payload it was built from, and is sent with its total length:
    heartbeats, registrations, frequency packs, log data, and whatever is passed
    with its header to `Abox_send_pack`. -/
theorem frames_wellFormed (sysSetup : List Byte) :
    (∀ s : AboxInformation, s.cboxOnlineNum ≤ cboxMaxNum →
      FrameOf (pack_ser_heart sysSetup s) tcmd1 (setupAppId sysSetup)
        (heartIds s s.cboxOnlineNum)) ∧
    (∀ dev_id, setupVer sysSetup ≠ 0 → ∃ f, sub_PackRegCmd sysSetup dev_id = some f ∧
      FrameOf f tcmd21 (setupAppId sysSetup) (registration sysSetup dev_id).toBytes) ∧
    (∀ freq_num serNetNum, ∀ freqInfo : FreqInformation, freqInfo.freqSaveNum.toNat ≤ 43 →
      FrameOf (sendFreqPack sysSetup freq_num serNetNum freqInfo) tcmd110 (setupAppId sysSetup)
        (freqPayload freq_num serNetNum freqInfo)) ∧
    (∀ data, ∀ len : BitVec 16, len ≠ 0 → 18 + len.toNat ≤ logServerBufsize →
      ∃ f, send_log_data sysSetup data len = some f ∧ FrameOf f tcmd112 (setupAppId sysSetup)
        ((logHead len).toBytes ++ readN data len.toNat)) ∧
    ∀ packcmd : StPackCmd, ∀ payload send, packcmd.soh = csoh →
      packcmd.len.toNat = payload.length → packcmdBytes packcmd ++ payload <+: send →
      10 + payload.length ≤ send.length → 10 + payload.length ≤ buffLen →
      FrameOf (Abox_send_pack send (BitVec.ofNat 16 (sizeofStPackCmd + payload.length)))
        packcmd.cmd packcmd.id payload := by
  refine ⟨?_, ?_, ?_, ?_, ?_⟩
  · exact fun s hn => frameOf_pack_ser_heart sysSetup hn
  · exact fun dev_id h => frameOf_sub_PackRegCmd dev_id h
  · exact fun freq_num serNetNum freqInfo h => frameOf_sendFreqPack sysSetup _ _ h
  · exact fun data len h0 h => frameOf_send_log_data sysSetup data h0 h
  · exact fun packcmd payload send hsoh hlen hsend hroom hfit =>
      frameOf_Abox_send_pack hsoh hlen hsend hroom hfit

/-- A setup with the id 1 and the version 300. -/
def setup1 : List Byte := setSetupVer (List.replicate 252 0 ++ [1] ++ List.replicate 53 0) 300

/-- One frame of each kind. -/
theorem frames_wellFormed_one :
    FrameOf (pack_ser_heart setup1 (addCbox initAboxInformation fun _ => 7).2) 1 1
      [7, 0, 0, 0] ∧
    (∃ f, sub_PackRegCmd setup1 9 = some f ∧
      FrameOf f 21 1 [44, 1, 9, 0, 0, 0, 0, 0, 0, 0, 0, 0, 0, 0]) ∧
    FrameOf (sendFreqPack setup1 5 0 ⟨0, 1, fun _ => 5⟩) 110 1 [5, 0, 1, 0, 5, 0] ∧
    (∃ f, send_log_data setup1 [0x41] 1 = some f ∧
      FrameOf f 112 1 [3, 0, 255, 255, 255, 255, 1, 0, 0x41]) ∧
    FrameOf (Abox_send_pack (packcmdBytes ⟨csoh, 2, 1, 1⟩ ++ [0x41, 0, 0]) 9) 2 1 [0x41] := by
  obtain ⟨hheart, hreg, hfreq, hlog, hpack⟩ := frames_wellFormed setup1
  have hid : setupAppId setup1 = 1 := by decide +kernel
  rw [hid] at hheart hreg hfreq hlog
  refine ⟨?_, ?_, ?_, ?_, ?_⟩
  · exact hheart (addCbox initAboxInformation fun _ => 7).2 (by decide)
  · exact hreg 9 (by decide +kernel)
  · exact hfreq 5 0 ⟨0, 1, fun _ => 5⟩ (by decide)
  · exact hlog [0x41] 1 (by decide) (by decide)
  · exact hpack ⟨csoh, 2, 1, 1⟩ [0x41] _ rfl rfl ⟨[0, 0], rfl⟩ (by decide) (by decide)

end Abox.Server
