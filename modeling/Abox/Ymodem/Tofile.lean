import Abox.Config.NetFile
import Abox.Update.Rupdata
import Abox.Ymodem.Text
import Abox.Ymodem.Transfer

/-!
# The file received by Ymodem

Model of `ymodem/tofile.c`: the callbacks that stage a program in the flash, or
take over a network configuration, depending on the name of the file.

A transfer starts with whatever was in the two buffers, in the context and on
the stack.

* `rymBg_header`: what the first packet of a file sets.
-/

namespace Abox.Ymodem

open Nor Flash Config Update

/-! ## The first packet -/

/-- `search_ch` (lines 38–49), with `-RT_ERROR` if there is no `ch`. -/
def search_ch (sbuf : List Byte) (bsize : ℕ) (ch : Byte) : ℤ :=
  match (readN sbuf bsize).findIdx? fun b => decide (b = ch) with
  | some i => i
  | none => -1

/-- `NET_FILE_NAME` (`abox.h` line 26), `"netConfig.ini"`. -/
def netFileName : List Byte :=
  [0x6E, 0x65, 0x74, 0x43, 0x6F, 0x6E, 0x66, 0x69, 0x67, 0x2E, 0x69, 0x6E, 0x69]

/-! ## The callbacks -/

/-- `file_type`. -/
inductive FileType
  | fileUpdata
  | fileNetConfig
  | fileCheckError
  | fileCheckOk
  deriving DecidableEq

/-- `temp`, the fields of `struct custom_ctx`, `fileType` and the system. -/
structure ToFile where
  temp : List Byte
  flen : BitVec 32
  fileAddr : BitVec 32
  fileType : FileType
  sys : ServerSystem

/-- `temp` is cleared and gets `len` bytes of `buf`. -/
def toTemp (buf : List Byte) (len : ℕ) : List Byte :=
  copyTo (List.replicate 1024 0) 0 (readN buf len)

/-- `_rym_bg` (lines 52–72). -/
def rymBg (cctx : ToFile) (buf : List Byte) (len : ℕ) : Option (Byte × ToFile) :=
  let zeroPlace : BitVec 8 := BitVec.ofInt 8 (search_ch buf 128 0)
  some (rymCodeAck,
    { cctx with
      temp := toTemp buf len
      flen := BitVec.ofInt 32 (atoi (buf.drop (zeroPlace.toNat + 1)))
      fileAddr := BitVec.ofNat 32 (updataAppAddr + 4)
      fileType :=
        if readN buf (strlen buf) = readN netFileName (strlen buf) then .fileNetConfig
        else .fileUpdata })

/-- `_rym_tof` (lines 74–87). -/
def rymTof (cctx : ToFile) (buf : List Byte) (len : ℕ) : Option (Byte × ToFile) :=
  let cctx := { cctx with temp := toTemp buf len }
  if cctx.fileType = .fileUpdata then
    match writeByteToFlash cctx.sys.flash cctx.fileAddr.toNat (readN buf len) with
    | none => none
    | some (_, flash) =>
      some (rymCodeAck,
        { cctx with
          fileAddr := cctx.fileAddr + BitVec.ofNat 32 len
          sys := { cctx.sys with flash := flash } })
  else some (rymCodeAck, cctx)

/-- The case `FILE_UPDATA` of `_rym_end` (lines 101–117). -/
def endUpdata (cctx : ToFile) (buf : List Byte) (len : ℕ) : Option ToFile :=
  match writeByteToFlash cctx.sys.flash cctx.fileAddr.toNat (readN buf len) with
  | none => none
  | some (_, flash) =>
    let fileAddr := cctx.fileAddr + BitVec.ofNat 32 len
    match writeByteToFlash flash updataAppAddr (Layout.word.encode cctx.flen) with
    | none => none
    | some (_, flash) =>
      if checkFlashFile flash = .rtEok then
        some { cctx with
          fileAddr := fileAddr
          fileType := .fileCheckOk
          sys := { cctx.sys with flash := flash } }
      else
        some { cctx with
          fileAddr := fileAddr
          sys := { cctx.sys with flash := clearSaveDataSector flash } }

/-- The case `FILE_NET_CONFIG` of `_rym_end` (lines 119–135), with what was on
    the stack in `serNetConfig`. -/
def endNetConfig (serNetConfig : ServerNetInformation) (cctx : ToFile) : Option ToFile :=
  match handleSerNetConfigFile serNetConfig cctx.temp cctx.flen.toInt with
  | none => none
  | some (ret, serNetConfig) =>
    if ret = rtEok then
      (controlServerInfo cctx.sys .writeNetconfigInfo (some serNetConfig)).map fun (sys, _) =>
        { cctx with fileType := .fileCheckOk, sys := sys }
    else some cctx

/-- `_rym_end` (lines 89–143). All of `temp` is copied from `buf`. -/
def rymEnd (serNetConfig : ServerNetInformation) (cctx : ToFile) (buf : List Byte) (len : ℕ) :
    Option (Byte × ToFile) :=
  let cctx := { cctx with temp := toTemp buf 1024 }
  let res :=
    match cctx.fileType with
    | .fileUpdata => endUpdata cctx buf len
    | .fileNetConfig => endNetConfig serNetConfig cctx
    | _ => some cctx
  res.map fun cctx => (rymCodeAck, cctx)

def callbacks (serNetConfig : ServerNetInformation) : Callbacks ToFile :=
  { onBegin := rymBg, onData := rymTof, onEnd := rymEnd serNetConfig }

/-- The last argument of `rym_recv_on_device` (line 154). -/
def handshakeTimeout : ℕ := 1000

theorem handshakeTimeout_pos : 0 < handshakeTimeout := by decide

/-- `rym_write_to_file` (lines 145–158). -/
def rymWriteToFile (serNetConfig : ServerNetInformation) (dev : List (Option Byte))
    (buf : List Byte) (cctx : ToFile) : Option (RymErr × RymCtx ToFile) :=
  doRecv (callbacks serNetConfig) dev buf cctx handshakeTimeout

/-- The callbacks acknowledge what they take. -/
theorem callbacks_acks (sn : ServerNetInformation) : (callbacks sn).Acks := by
  intro u buf len code u' h
  change rymTof u buf len = some (code, u') at h
  unfold rymTof at h
  dsimp only at h
  split_ifs at h with htype
  · cases hw : writeByteToFlash u.sys.flash u.fileAddr.toNat (readN buf len) with
    | none =>
      simp only [hw] at h
      cases h
    | some r =>
      simp only [hw] at h
      cases h
      rfl
  · cases h
    rfl

/-! ## A file that is sent -/

/-- The data of the packet 0: the name, a zero, the size, something that is no
    digit, and whatever the sender puts behind it. -/
def headerData (name : List Byte) (size : ℕ) (stop : Byte) (fill : List Byte) : List Byte :=
  name ++ 0 :: (decimal size ++ stop :: fill)

/-- A file and how it is sent: its blocks hold the file, and behind it what the
    last one is filled up with. -/
structure Sending where
  name : List Byte
  file : List Byte
  stop : Byte
  fill : List Byte
  waits : ℕ
  headerAgain : ℕ
  blocks : List Block
  tail : List (Option Byte)
  name_ne_zero : ∀ b ∈ name, b ≠ 0
  stop_not_digit : isDigit stop = false
  length_header : (headerData name file.length stop fill).length = 128
  file_prefix : file <+: blocks.flatMap Block.data
  waits_lt : waits < handshakeTimeout

namespace Sending

def header (s : Sending) : Header :=
  { seq := 0
    data := headerData s.name s.file.length s.stop s.fill
    length_data := Or.inl s.length_header
    seq_eq := rfl
    length_eq := s.length_header }

def sender (s : Sending) : Sender :=
  { waits := s.waits, header := s.header, headerAgain := s.headerAgain, blocks := s.blocks,
    tail := s.tail }

@[simp] theorem sender_header (s : Sending) : s.sender.header = s.header := rfl

@[simp] theorem sender_blocks (s : Sending) : s.sender.blocks = s.blocks := rfl

/-- The bytes of the blocks, each block once. -/
def data (s : Sending) : List Byte := s.blocks.flatMap Block.data

end Sending

/-! ## What the first packet sets -/

theorem search_ch_name {name rest : List Byte} (h : ∀ b ∈ name, b ≠ 0) {bsize : ℕ}
    (hlt : name.length < bsize) (hle : bsize ≤ (name ++ 0 :: rest).length) :
    search_ch (name ++ 0 :: rest) bsize 0 = name.length := by
  have hfind : (readN (name ++ 0 :: rest) bsize).findIdx? (fun b => decide (b = 0)) =
      some name.length := by
    rw [readN_of_le hle, List.findIdx?_eq_some_iff_getElem]
    refine ⟨by rw [List.length_take, Nat.min_eq_left hle]; exact hlt, ?_, ?_⟩
    · simp
    · intro j hj
      have hmem : name[j] ∈ name := List.getElem_mem hj
      simpa [List.getElem_append_left hj] using h _ hmem
  unfold search_ch
  rw [hfind]

namespace Sending

/-- The device takes the file for a network configuration: its name is an
    initial part of `NET_FILE_NAME`. -/
def isNetFile (s : Sending) : Bool := decide (s.name = readN netFileName s.name.length)

/-- `flen` as the packet 0 announces it. -/
def flen (s : Sending) : BitVec 32 := BitVec.ofInt 32 (min longMax s.file.length)

end Sending

/-- What the first packet of a file sets. -/
theorem rymBg_header (s : Sending) (cctx : ToFile) (buf : List Byte) :
    ∃ temp, rymBg cctx (s.header.payload buf) 128 = some (rymCodeAck,
      { cctx with
        temp := temp
        flen := s.flen
        fileAddr := BitVec.ofNat 32 (updataAppAddr + 4)
        fileType := if s.isNetFile then .fileNetConfig else .fileUpdata }) := by
  obtain ⟨rest, hpayload⟩ : ∃ rest, s.header.payload buf =
      s.name ++ 0 :: (decimal s.file.length ++ s.stop :: rest) := by
    refine ⟨s.fill ++ (ccittBytes (CcittCrc16 s.header.data) ++
      buf.drop (s.header.data.length + 5)), ?_⟩
    show headerData s.name s.file.length s.stop s.fill ++ _ = _
    unfold headerData
    simp only [List.append_assoc, List.cons_append]
  have hname : s.name.length < 128 := by
    have := s.length_header
    simp only [headerData, List.length_append, List.length_cons] at this
    omega
  have hlen : 128 ≤ (s.header.payload buf).length := by
    have : s.header.data.length = 128 := s.length_header
    simp only [Packet.payload, List.length_append]
    omega
  have hsearch : search_ch (s.header.payload buf) 128 0 = s.name.length := by
    rw [hpayload] at hlen ⊢
    exact search_ch_name s.name_ne_zero hname hlen
  have hzero : (BitVec.ofInt 8 (s.name.length : ℤ)).toNat = s.name.length := by
    rw [BitVec.ofInt_natCast, BitVec.toNat_ofNat]
    omega
  have hstrlen : strlen (s.header.payload buf) = s.name.length := by
    rw [hpayload]
    exact strlen_name s.name_ne_zero
  have hread : readN (s.header.payload buf) s.name.length = s.name := by
    rw [hpayload, readN_of_le (by simp), List.take_left]
  have hsize : (s.header.payload buf).drop (s.name.length + 1) =
      decimal s.file.length ++ s.stop :: rest := by
    rw [hpayload, ← List.drop_drop, List.drop_left]
    rfl
  refine ⟨toTemp (s.header.payload buf) 128, ?_⟩
  unfold rymBg Sending.flen Sending.isNetFile
  simp only [hsearch, hzero, hstrlen, hread, hsize, atoi_decimal s.stop_not_digit,
    decide_eq_true_eq]

end Abox.Ymodem
