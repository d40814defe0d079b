import Abox.Flash.Crc
import Abox.Flash.Secret
import Abox.Frame.Crc

/-!
# The remote update

Model of `process_DEV_USER_RUPDATA` (`sub-G/exchange.c` lines 371–555) and of
what it calls. A request `TCMD_12` announces a program of a number of bytes; it
is received in messages `TCMD_11`, each with the offset of its chunk, and is
staged from `UPDATA_APP_ADDR` on, behind its length.

A message is the bytes from `rev` on, and `none` stands for a receive that times
out. What is sent is recorded as it is given to `sendDataToServer`; the output
on the console is left out. Addresses behind the flash read like any memory.
-/

namespace Abox.Update

open Nor Flash

/-! ## Data -/

/-- `TCMD_11_Info` and `TCMD_12_Info`, which have the same fields. -/
structure TcmdInfo where
  ver : BitVec 32
  reserved0 : BitVec 32
  reserved1 : BitVec 32
  flen : BitVec 32
  deriving DecidableEq

def TcmdInfo.ofBytes (bs : List Byte) : TcmdInfo :=
  { ver := u32At bs 0, reserved0 := u32At bs 4, reserved1 := u32At bs 8, flen := u32At bs 12 }

def TcmdInfo.toBytes (c : TcmdInfo) : List Byte :=
  Layout.word.encode c.ver ++ Layout.word.encode c.reserved0 ++ Layout.word.encode c.reserved1 ++
    Layout.word.encode c.flen

/-- An `stPackCmd` as the bytes it is in memory. -/
def packcmdBytes (packcmd : StPackCmd) : List Byte :=
  [packcmd.soh, packcmd.cmd] ++ Layout.word.encode packcmd.id ++ crcBytes packcmd.len

/-- `Sys_Setup.ver`. -/
def setupVer (setup : List Byte) : BitVec 32 := u32At setup 224

/-- `Sys_Setup.app.id`. -/
def setupAppId (setup : List Byte) : BitVec 32 := u32At setup 252

/-- `Sys_Setup.ver = ver`. -/
def setSetupVer (setup : List Byte) (ver : BitVec 32) : List Byte :=
  setup.take 224 ++ Layout.word.encode ver ++ setup.drop 228

/-- What the update reads and changes of the device. -/
structure Device where
  mem : Mem
  atStatus : AtStatus
  sysSetup : List Byte

/-- The device, the variables of `process_DEV_USER_RUPDATA`, the buffer `send`
    and all that was sent. -/
structure State extends Device where
  startAddr : BitVec 32
  packcmd : StPackCmd
  cmd11 : TcmdInfo
  err : ℕ
  send : List Byte
  sent : List (List Byte)

/-! ## Flash -/

/-- `clearSaveDataSector` (`flash_control.c` lines 216–239): sectors 9 to 11. -/
def clearSaveDataSector (m : Mem) : Mem :=
  (List.range 3).foldl (fun m i =>
    FLASH_EraseSector m (STMFLASH_GetFlashSector (updataAppAddr + 0x20000 * i))) m

/-- `checkFlashFile` (`flash_control.c` lines 244–259). -/
def checkFlashFile (m : Mem) : RtErr :=
  let flen := STMFLASH_ReadWord m updataAppAddr
  if flen ≠ 0 ∧ flen ≠ 0xffffffff then
    if calcFlashCrc m (updataAppAddr + 4) flen.toNat = 0 then .rtEok else .rtError
  else .rtError

/-- `SaveSetup` (`ctrl.c` lines 102–110). -/
def SaveSetup (m : Mem) (setup : List Byte) : Option Mem :=
  if setupAppId setup ≠ 0 ∧ setupAppId setup ≠ 0xffffffff then setSecret_1 m dataAddr setup
  else some m

/-! ## Sending -/

/-- `g3_send_pack` and `Abox_send_pack` (`Abox_exchange.c` lines 61–74). A write of the
    checksum behind the end of `send` is ignored. -/
def State.g3_send_pack (s : State) (len : BitVec 16) : State :=
  let crc := ModbusCrc16 (readN s.send len.toNat)
  let send := (s.send.set len.toNat (crc.extractLsb' 0 8)).set (len.toNat + 1) (crc.extractLsb' 8 8)
  { s with send := send, sent := s.sent ++ [readN send (len + 2).toNat] }

/-- `packcmd` and `cmd_11` are copied to `send`. -/
def State.pack (s : State) : State :=
  { s with send := packcmdBytes s.packcmd ++ s.cmd11.toBytes ++ s.send.drop 24 }

/-- `packcmd` and `cmd_11` are sent. -/
def State.sendPack (s : State) : State := s.pack.g3_send_pack (s.packcmd.len + 8)

/-- The header of the packets the device sends. -/
def replyHeader (id : BitVec 32) : StPackCmd := { soh := 0x23, cmd := 11, id := id, len := 16 }

/-! ## Receiving -/

/-- How a pass of the receiving loop ends: with the next pass, with the result
    `ret`, or never. -/
inductive Pass
  | again (s : State)
  | ended (ret : ℤ) (s : State)
  | hang

/-- The pass from the label `loop` on (lines 506–523). -/
def State.timeout (s : State) : Pass :=
  if 5 < s.err then .ended (-1) s
  else
    let s := s.g3_send_pack (s.packcmd.len + 8)
    .again { s with err := s.err + 1 }

/-- The end of a pass that has written a chunk (lines 457–490). -/
def State.written (s : State) (cmd12 : TcmdInfo) : Pass :=
  if s.cmd11.flen = cmd12.flen then
    match writeByteToFlash s.mem updataAppAddr (Layout.word.encode s.cmd11.flen) with
    | none => .hang
    | some (_, mem) =>
      let s := { s with mem := mem }
      if checkFlashFile s.mem = .rtEok then .ended 1 s.sendPack else .ended (-1) s
  else .again { s with packcmd := replyHeader (setupAppId s.sysSetup) }.sendPack

/-- One pass of the receiving loop (lines 440–527). -/
def State.recvPass (s : State) (cmd12 : TcmdInfo) : Option (List Byte) → Pass
  | none => s.timeout
  | some rev =>
    let s : State := { s with packcmd := StPackCmd.ofBytes rev, err := 0 }
    if s.packcmd.id = setupAppId s.sysSetup ∧ s.packcmd.cmd = 11 then
      if u32At rev 8 = s.cmd11.flen then
        let len : BitVec 32 := s.packcmd.len.signExtend 32 - 4
        match writeByteToFlash s.mem s.startAddr.toNat (readN (rev.drop 12) len.toNat) with
        | none => .hang
        | some (_, mem) =>
          { s with
            mem := mem
            startAddr := s.startAddr + len
            cmd11 := { s.cmd11 with flen := s.cmd11.flen + len } }.written cmd12
      else s.timeout
    else .ended (-1) s

/-- The state of a call: it waits for a message, it has returned (with `ret`),
    or it hangs. -/
inductive Result
  | running (s : State)
  | returned (ret : ℤ) (s : State)
  | hang

/-- What follows the loop (lines 529–552); with `ret = 1` the device restarts. -/
def State.finish (s : State) (cmd12 : TcmdInfo) (ret : ℤ) : Result :=
  let s := { s with atStatus := .atFree }
  if ret = 1 then
    if setupVer s.sysSetup ≠ cmd12.ver then
      let setup := setSetupVer s.sysSetup 0
      match SaveSetup s.mem setup with
      | none => .hang
      | some mem => .returned ret { s with mem := mem, sysSetup := setup }
    else .returned ret s
  else
    let s := { s with cmd11 := { s.cmd11 with flen := 0xffffffff } }.sendPack
    .returned ret { s with mem := clearSaveDataSector s.mem }

/-- The receiving loop, over the messages that come in. -/
def State.recvLoop (cmd12 : TcmdInfo) (s : State) : List (Option (List Byte)) → Result
  | [] => .running s
  | msg :: msgs =>
    match s.recvPass cmd12 msg with
    | .again s => recvLoop cmd12 s msgs
    | .ended ret s => s.finish cmd12 ret
    | .hang => .hang

/-- The number of staged bytes the first reply announces, and the memory it is
    about (lines 413–430). -/
def resume (m : Mem) (cmd12 : TcmdInfo) : BitVec 32 × Mem :=
  let flen := STMFLASH_ReadWord m updataAppAddr
  if flen = 0xffffffff then (0, m)
  else if flen < cmd12.flen then (flen, m)
  else (0, clearSaveDataSector m)

/-- `process_DEV_USER_RUPDATA`, with the request in `rev`. -/
def process_DEV_USER_RUPDATA (d : Device) (send rev : List Byte)
    (msgs : List (Option (List Byte))) : Result :=
  let cmd11 := TcmdInfo.ofBytes (rev.drop sizeofStPackCmd)
  let cmd12 := TcmdInfo.ofBytes (rev.drop sizeofStPackCmd)
  let s : State :=
    { d with
      atStatus := .atSerUpdata
      startAddr := BitVec.ofNat 32 updataAppAddr
      packcmd := replyHeader (setupAppId d.sysSetup)
      cmd11 := cmd11
      err := 0
      send := send
      sent := [] }
  if cmd11.ver < 300 ∨ 400 < cmd11.ver then
    let s := { s with cmd11 := { cmd11 with flen := 0xffffffff } }.sendPack
    .returned 0 { s with mem := clearSaveDataSector s.mem }
  else
    let (flen, mem) := resume s.mem cmd12
    let s :=
      { s with
        mem := mem
        cmd11 := { cmd11 with flen := flen }
        startAddr := s.startAddr + 4 + flen }
    s.sendPack.recvLoop cmd12 msgs

end Abox.Update
