import Abox.Basic

/-!
# Receiving a file by Ymodem

Model of `rym_recv_on_device` and what it calls (`ymodem/ymodem.c`). The device
is the list of what will arrive: a byte, or `none` where three seconds pass
without one, which is how long every wait of the receiver lasts. At the end of
the list nothing arrives any more. Delays are left out.

A transfer works on the state `σ` of the callbacks. A result `none` means that a
callback does not return, or that the receiver goes on with a variable it has
not set.

* `CcittCrc16_append`: data with its checksum behind it has the checksum 0.
-/

namespace Abox.Ymodem

/-! ## The checksum -/

/-- `_Ccitt_Table`. -/
def ccittTable : Array (BitVec 16) :=
  #[0x0000, 0x1021, 0x2042, 0x3063, 0x4084, 0x50a5, 0x60c6, 0x70e7, 0x8108, 0x9129,
    0xa14a, 0xb16b, 0xc18c, 0xd1ad, 0xe1ce, 0xf1ef, 0x1231, 0x0210, 0x3273, 0x2252,
    0x52b5, 0x4294, 0x72f7, 0x62d6, 0x9339, 0x8318, 0xb37b, 0xa35a, 0xd3bd, 0xc39c,
    0xf3ff, 0xe3de, 0x2462, 0x3443, 0x0420, 0x1401, 0x64e6, 0x74c7, 0x44a4, 0x5485,
    0xa56a, 0xb54b, 0x8528, 0x9509, 0xe5ee, 0xf5cf, 0xc5ac, 0xd58d, 0x3653, 0x2672,
    0x1611, 0x0630, 0x76d7, 0x66f6, 0x5695, 0x46b4, 0xb75b, 0xa77a, 0x9719, 0x8738,
    0xf7df, 0xe7fe, 0xd79d, 0xc7bc, 0x48c4, 0x58e5, 0x6886, 0x78a7, 0x0840, 0x1861,
    0x2802, 0x3823, 0xc9cc, 0xd9ed, 0xe98e, 0xf9af, 0x8948, 0x9969, 0xa90a, 0xb92b,
    0x5af5, 0x4ad4, 0x7ab7, 0x6a96, 0x1a71, 0x0a50, 0x3a33, 0x2a12, 0xdbfd, 0xcbdc,
    0xfbbf, 0xeb9e, 0x9b79, 0x8b58, 0xbb3b, 0xab1a, 0x6ca6, 0x7c87, 0x4ce4, 0x5cc5,
    0x2c22, 0x3c03, 0x0c60, 0x1c41, 0xedae, 0xfd8f, 0xcdec, 0xddcd, 0xad2a, 0xbd0b,
    0x8d68, 0x9d49, 0x7e97, 0x6eb6, 0x5ed5, 0x4ef4, 0x3e13, 0x2e32, 0x1e51, 0x0e70,
    0xff9f, 0xefbe, 0xdfdd, 0xcffc, 0xbf1b, 0xaf3a, 0x9f59, 0x8f78, 0x9188, 0x81a9,
    0xb1ca, 0xa1eb, 0xd10c, 0xc12d, 0xf14e, 0xe16f, 0x1080, 0x00a1, 0x30c2, 0x20e3,
    0x5004, 0x4025, 0x7046, 0x6067, 0x83b9, 0x9398, 0xa3fb, 0xb3da, 0xc33d, 0xd31c,
    0xe37f, 0xf35e, 0x02b1, 0x1290, 0x22f3, 0x32d2, 0x4235, 0x5214, 0x6277, 0x7256,
    0xb5ea, 0xa5cb, 0x95a8, 0x8589, 0xf56e, 0xe54f, 0xd52c, 0xc50d, 0x34e2, 0x24c3,
    0x14a0, 0x0481, 0x7466, 0x6447, 0x5424, 0x4405, 0xa7db, 0xb7fa, 0x8799, 0x97b8,
    0xe75f, 0xf77e, 0xc71d, 0xd73c, 0x26d3, 0x36f2, 0x0691, 0x16b0, 0x6657, 0x7676,
    0x4615, 0x5634, 0xd94c, 0xc96d, 0xf90e, 0xe92f, 0x99c8, 0x89e9, 0xb98a, 0xa9ab,
    0x5844, 0x4865, 0x7806, 0x6827, 0x18c0, 0x08e1, 0x3882, 0x28a3, 0xcb7d, 0xdb5c,
    0xeb3f, 0xfb1e, 0x8bf9, 0x9bd8, 0xabbb, 0xbb9a, 0x4a75, 0x5a54, 0x6a37, 0x7a16,
    0x0af1, 0x1ad0, 0x2ab3, 0x3a92, 0xfd2e, 0xed0f, 0xdd6c, 0xcd4d, 0xbdaa, 0xad8b,
    0x9de8, 0x8dc9, 0x7c26, 0x6c07, 0x5c64, 0x4c45, 0x3ca2, 0x2c83, 0x1ce0, 0x0cc1,
    0xef1f, 0xff3e, 0xcf5d, 0xdf7c, 0xaf9b, 0xbfba, 0x8fd9, 0x9ff8, 0x6e17, 0x7e36,
    0x4e55, 0x5e74, 0x2e93, 0x3eb2, 0x0ed1, 0x1ef0]

/-- `CcittCrc16`. -/
def CcittCrc16 (buff : List Byte) : BitVec 16 :=
  buff.foldl (fun crc b =>
    ccittTable.getD (((crc >>> 8) ^^^ b.setWidth 16) &&& 0xff).toNat 0 ^^^ (crc <<< 8)) 0

/-! ## The context -/

/-- `enum rym_code` (`ymodem.h`), as the byte that is on the line. -/
def rymCodeNone : Byte := 0x00
def rymCodeSoh : Byte := 0x01
def rymCodeStx : Byte := 0x02
def rymCodeEot : Byte := 0x04
def rymCodeAck : Byte := 0x06
def rymCodeNak : Byte := 0x15
def rymCodeCan : Byte := 0x18
def rymCodeC : Byte := 0x43

/-- `RYM_END_SESSION_SEND_CAN_NUM`. -/
def rymEndSessionSendCanNum : ℕ := 7

/-- The results of a transfer: `RT_EOK` and the errors `RYM_ERR_…`. -/
inductive RymErr
  | eok
  | tmo
  | code
  | seq
  | crc
  | dsz
  | can
  deriving DecidableEq

/-- `enum rym_stage`. -/
inductive RymStage
  | none
  | establishing
  | established
  | transmitting
  | finishing
  | finished
  deriving DecidableEq

/-- The three `rym_callback`s. They get the buffer from `buf` on, all of it, and
    `len`. -/
structure Callbacks (σ : Type) where
  onBegin : σ → List Byte → ℕ → Option (Byte × σ)
  onData : σ → List Byte → ℕ → Option (Byte × σ)
  onEnd : σ → List Byte → ℕ → Option (Byte × σ)

/-- `struct rym_ctx`, the device, what was sent on it, and the state of the
    callbacks. -/
structure RymCtx (σ : Type) where
  dev : List (Option Byte)
  sent : List Byte
  stage : RymStage
  buf : List Byte
  user : σ

variable {σ : Type}

/-! ## Reading and writing -/

/-- `_rym_putchar`. -/
def RymCtx.putchar (ctx : RymCtx σ) (code : Byte) : RymCtx σ :=
  { ctx with sent := ctx.sent ++ [code] }

/-- `_rym_read_code`. -/
def RymCtx.readCode (ctx : RymCtx σ) : Byte × RymCtx σ :=
  match ctx.dev with
  | some b :: dev => (b, { ctx with dev := dev, buf := b :: ctx.buf.drop 1 })
  | none :: dev => (rymCodeNone, { ctx with dev := dev })
  | [] => (rymCodeNone, ctx)

/-- The bytes that arrive until there are `len`, or none for three seconds. -/
def readBytes : ℕ → List (Option Byte) → List Byte × List (Option Byte)
  | 0, dev => ([], dev)
  | len + 1, some b :: dev =>
    let (bytes, dev) := readBytes len dev
    (b :: bytes, dev)
  | _ + 1, none :: dev => ([], dev)
  | _ + 1, [] => ([], [])

/-- `_rym_read_data`: how many bytes were read. They are behind the code in
    `ctx->buf`. -/
def RymCtx.readData (ctx : RymCtx σ) (len : ℕ) : ℕ × RymCtx σ :=
  let (bytes, dev) := readBytes len ctx.dev
  (bytes.length,
    { ctx with dev := dev, buf := ctx.buf.take 1 ++ bytes ++ ctx.buf.drop (1 + bytes.length) })

/-- `ctx->buf + 3`. -/
def RymCtx.payload (ctx : RymCtx σ) : List Byte := ctx.buf.drop 3

/-- The tests on the first and the last packet: its number is 0 and the checksum
    is right. -/
def RymCtx.checkPacket0 (ctx : RymCtx σ) : RymErr :=
  if ctx.buf.getD 1 0 ≠ 0 ∨ ctx.buf.getD 2 0 ≠ 0xFF then .seq
  else if CcittCrc16 (readN ctx.payload 130) ≠ 0 then .crc
  else .eok

/-! ## The transfer -/

/-- The loop of `_rym_do_handshake` with `tries` tries left, and whether a packet
    starts. -/
def RymCtx.awaitSoh (ctx : RymCtx σ) : ℕ → Bool × RymCtx σ
  | 0 => (false, ctx)
  | tries + 1 =>
    let (code, ctx) := (ctx.putchar rymCodeC).readCode
    if code = rymCodeSoh then (true, ctx) else ctx.awaitSoh tries

/-- `_rym_do_handshake`. -/
def RymCtx.doHandshake (cb : Callbacks σ) (ctx : RymCtx σ) (tmSec : ℕ) :
    Option (RymErr × RymCtx σ) :=
  match { ctx with stage := .establishing }.awaitSoh tmSec with
  | (false, ctx) => some (.tmo, ctx)
  | (true, ctx) =>
    let (i, ctx) := ctx.readData 132
    if i ≠ 132 then some (.dsz, ctx)
    else if ctx.checkPacket0 ≠ .eok then some (ctx.checkPacket0, ctx)
    else
      (cb.onBegin ctx.user ctx.payload 128).map fun (code, user) =>
        (if code = rymCodeAck then .eok else .can, { ctx with user := user })

/-- `_rym_trans_data`, with `*code` in the result. -/
def RymCtx.transData (cb : Callbacks σ) (ctx : RymCtx σ) (dataSz : ℕ) (code : Byte) :
    Option (RymErr × Byte × RymCtx σ) :=
  let (i, ctx) := ctx.readData (dataSz + 4)
  if i ≠ dataSz + 4 then some (.dsz, code, ctx)
  else if (ctx.buf.getD 1 0).toNat + (ctx.buf.getD 2 0).toNat ≠ 0xFF then some (.seq, code, ctx)
  else if ctx.stage = .established ∧ ctx.buf.getD 1 0 = 0 then some (.eok, rymCodeNone, ctx)
  else
    let ctx := { ctx with stage := .transmitting }
    if CcittCrc16 (readN ctx.payload (dataSz + 2)) ≠ 0 then some (.crc, code, ctx)
    else
      (cb.onData ctx.user ctx.payload dataSz).map fun (code, user) =>
        (.eok, code, { ctx with user := user })

/-- The size of the packet a code starts. -/
def packetSize (code : Byte) : Option ℕ :=
  if code = rymCodeSoh then some 128 else if code = rymCodeStx then some 1024 else none

/-- The loop of `_rym_do_trans`, in which every pass takes something from the
    device: `fuel` is more than there is. After any other code `data_sz` is not
    set, and the pass goes on with it. -/
def RymCtx.transLoop (cb : Callbacks σ) : ℕ → RymCtx σ → Option (RymErr × RymCtx σ)
  | 0, _ => none
  | fuel + 1, ctx =>
    let (code, ctx) := ctx.readCode
    if code = rymCodeEot then some (.eok, ctx)
    else
      match packetSize code with
      | none => none
      | some dataSz =>
        match ctx.transData cb dataSz code with
        | none => none
        | some (err, code, ctx) =>
          if err ≠ .eok then some (err, ctx)
          else if code = rymCodeCan then
            some (.can, (List.range rymEndSessionSendCanNum).foldl
              (fun ctx _ => ctx.putchar rymCodeCan) ctx)
          else if code = rymCodeAck then (ctx.putchar rymCodeAck).transLoop cb fuel
          else ctx.transLoop cb fuel

/-- `_rym_do_trans`. -/
def RymCtx.doTrans (cb : Callbacks σ) (ctx : RymCtx σ) : Option (RymErr × RymCtx σ) :=
  let ctx := (ctx.putchar rymCodeAck).putchar rymCodeC
  { ctx with stage := .established }.transLoop cb (ctx.dev.length + 1)

/-- The last packet of `_rym_do_fin`, which starts with the code `code`. -/
def RymCtx.lastPacket (ctx : RymCtx σ) (code : Byte) : RymErr × RymCtx σ :=
  if code ≠ rymCodeSoh then (.code, ctx)
  else
    let (i, ctx) := ctx.readData 132
    if i ≠ 132 then (.dsz, ctx)
    else if ctx.checkPacket0 ≠ .eok then (ctx.checkPacket0, ctx)
    else (.eok, { ctx with stage := .finished }.putchar rymCodeAck)

/-- `_rym_do_fin` behind the callback. -/
def RymCtx.finish (ctx : RymCtx σ) : RymErr × RymCtx σ :=
  let (code, ctx) := (ctx.putchar rymCodeNak).readCode
  if code ≠ rymCodeEot then (.code, ctx)
  else
    let (code, ctx) := ((ctx.putchar rymCodeAck).putchar rymCodeC).readCode
    if code = rymCodeEot then
      let (code, ctx) := ((ctx.putchar rymCodeAck).putchar rymCodeC).readCode
      ctx.lastPacket code
    else ctx.lastPacket code

/-- `_rym_do_fin`. -/
def RymCtx.doFin (cb : Callbacks σ) (ctx : RymCtx σ) : Option (RymErr × RymCtx σ) :=
  (cb.onEnd ctx.user ctx.payload 128).map fun (_, user) =>
    { ctx with stage := .finishing, user := user }.finish

/-- The length of the buffer, `_RYM_STX_PKG_SZ`. -/
def rymStxPkgSz : ℕ := 1 + 2 + 1024 + 2

/-- `_rym_do_recv`, with what `rt_malloc` returned in `buf`. -/
def doRecv (cb : Callbacks σ) (dev : List (Option Byte)) (buf : List Byte) (user : σ)
    (handshakeTimeout : ℕ) : Option (RymErr × RymCtx σ) :=
  let ctx : RymCtx σ := { dev := dev, sent := [], stage := .none, buf := buf, user := user }
  match ctx.doHandshake cb handshakeTimeout with
  | none => none
  | some (err, ctx) =>
    if err ≠ .eok then some (err, ctx)
    else
      match ctx.doTrans cb with
      | none => none
      | some (err, ctx) => if err ≠ .eok then some (err, ctx) else ctx.doFin cb

end Abox.Ymodem
