import Abox.Ymodem.Receive

/-!
# A transfer that follows the protocol

What a sender puts on the line for a file: a packet 0 with the name, the data in
packets of 128 or 1024 bytes that are numbered from 1 on, and `EOT`. Any packet
may be there several times in a row, because its `ACK` was lost. Between the
first packet and `EOT` no three seconds pass without a byte.

* `transData_packet`, `transLoop_packets`: what the receiver makes of one packet
  and of all of them.
* `doRecv_session`: a whole transfer is one call of `on_begin`, one of `on_data`
  for every packet that comes in, repeated ones included, and one of `on_end`.
-/

namespace Abox.Ymodem

/-! ## Packets -/

/-- The checksum of a packet, the high byte first. -/
def ccittBytes (crc : BitVec 16) : List Byte := [crc.extractLsb' 8 8, crc.extractLsb' 0 8]

structure Packet where
  seq : Byte
  data : List Byte
  length_data : data.length = 128 ∨ data.length = 1024

namespace Packet

/-- The code the packet starts with. -/
def code (p : Packet) : Byte := if p.data.length = 128 then rymCodeSoh else rymCodeStx

/-- What is behind the code. -/
def body (p : Packet) : List Byte := p.seq :: ~~~p.seq :: (p.data ++ ccittBytes (CcittCrc16 p.data))

def bytes (p : Packet) : List Byte := p.code :: p.body

@[simp] theorem length_body (p : Packet) : p.body.length = p.data.length + 4 := by
  simp [body, ccittBytes]

@[simp] theorem length_bytes (p : Packet) : p.bytes.length = p.data.length + 5 := by
  simp [bytes]

theorem packetSize_code (p : Packet) : packetSize p.code = some p.data.length := by
  unfold code
  rcases p.length_data with h | h
  · rw [if_pos h, h]
    rfl
  · rw [if_neg (by omega), h]
    rfl

theorem code_ne_eot (p : Packet) : p.code ≠ rymCodeEot := by
  unfold code
  split_ifs <;> decide

/-- The receive buffer after a packet: the packet, and behind it what was there. -/
def received (p : Packet) (buf : List Byte) : List Byte := p.bytes ++ buf.drop p.bytes.length

/-- A repeated packet changes nothing in the buffer. -/
theorem received_received (p : Packet) (buf : List Byte) :
    p.received (p.received buf) = p.received buf := by
  unfold received
  rw [List.drop_left]

end Packet

/-! ## The checksum -/

theorem CcittCrc16_push (buff : List Byte) (b : Byte) :
    CcittCrc16 (buff ++ [b]) =
      ccittTable.getD (((CcittCrc16 buff >>> 8) ^^^ b.setWidth 16) &&& 0xff).toNat 0 ^^^
        (CcittCrc16 buff <<< 8) := by
  unfold CcittCrc16
  rw [List.foldl_append]
  rfl

/-- The byte that is in the high half of the register shifts the other one up. -/
theorem CcittCrc16_push_high {buff : List Byte} {b : Byte}
    (h : (CcittCrc16 buff).extractLsb' 8 8 = b) :
    CcittCrc16 (buff ++ [b]) = CcittCrc16 buff <<< 8 := by
  have hi : ((CcittCrc16 buff >>> 8) ^^^ b.setWidth 16) &&& 0xff = 0 := by
    subst h
    generalize CcittCrc16 buff = crc
    ext i hi
    interval_cases i <;> simp
  have h0 : ccittTable.getD (0 : BitVec 16).toNat 0 = 0 := by decide +kernel
  rw [CcittCrc16_push, hi, h0]
  exact BitVec.zero_xor

/-- Data with its checksum behind it has the checksum 0. -/
theorem CcittCrc16_append (data : List Byte) :
    CcittCrc16 (data ++ ccittBytes (CcittCrc16 data)) = 0 := by
  have h1 : CcittCrc16 (data ++ [(CcittCrc16 data).extractLsb' 8 8]) = CcittCrc16 data <<< 8 :=
    CcittCrc16_push_high rfl
  have hlow : (CcittCrc16 data <<< 8).extractLsb' 8 8 = (CcittCrc16 data).extractLsb' 0 8 := by
    ext i hi
    simp
    omega
  have hsplit : data ++ ccittBytes (CcittCrc16 data) =
      data ++ [(CcittCrc16 data).extractLsb' 8 8] ++ [(CcittCrc16 data).extractLsb' 0 8] := by
    rw [List.append_assoc]
    rfl
  rw [hsplit, CcittCrc16_push_high (by rw [h1, hlow]), h1]
  ext i hi
  simp

/-! ## One packet -/

variable {σ : Type}

theorem readBytes_append (bytes : List Byte) (dev : List (Option Byte)) :
    readBytes bytes.length (bytes.map some ++ dev) = (bytes, dev) := by
  induction bytes with
  | nil => rfl
  | cons b bytes ih => simp only [List.length_cons, List.map_cons, List.cons_append, readBytes, ih]

namespace Packet

/-- The packet on the line. -/
def onLine (p : Packet) : List (Option Byte) := p.bytes.map some

/-- What is behind `buf + 3` after a packet. -/
def payload (p : Packet) (buf : List Byte) : List Byte :=
  p.data ++ (ccittBytes (CcittCrc16 p.data) ++ buf.drop (p.data.length + 5))

theorem payload_received (p : Packet) (buf : List Byte) :
    (p.received buf).drop 3 = p.payload buf := by
  unfold received
  rw [length_bytes]
  show (p.data ++ _) ++ _ = _
  rw [List.append_assoc]
  rfl

theorem readN_payload (p : Packet) (buf : List Byte) :
    CcittCrc16 (readN (p.payload buf) (p.data.length + 2)) = 0 := by
  have hread : readN (p.payload buf) (p.data.length + 2) =
      p.data ++ ccittBytes (CcittCrc16 p.data) := by
    have hlen : (p.data ++ ccittBytes (CcittCrc16 p.data)).length = p.data.length + 2 := by
      simp [ccittBytes]
    unfold payload
    rw [← List.append_assoc, ← hlen, readN_of_le (by simp), List.take_left]
  rw [hread, CcittCrc16_append]

theorem readN_payload_data (p : Packet) (buf : List Byte) {n : ℕ} (h : n ≤ p.data.length) :
    readN (p.payload buf) n = p.data.take n := by
  unfold payload
  rw [readN_of_le (by simp; omega), List.take_append_of_le_length h]

end Packet

/-- The context after a packet has come in. -/
def RymCtx.receive (ctx : RymCtx σ) (p : Packet) (dev : List (Option Byte)) : RymCtx σ :=
  { ctx with dev := dev, buf := p.received ctx.buf }

theorem RymCtx.readCode_packet {ctx : RymCtx σ} {p : Packet} {dev : List (Option Byte)}
    (h : ctx.dev = p.onLine ++ dev) :
    ctx.readCode = (p.code,
      { ctx with dev := p.body.map some ++ dev, buf := p.code :: ctx.buf.drop 1 }) := by
  unfold readCode
  rw [h]
  rfl

/-- Behind the code, the rest of a packet is read. -/
theorem RymCtx.readData_packet (ctx : RymCtx σ) (p : Packet) (dev : List (Option Byte)) :
    readData { ctx with dev := p.body.map some ++ dev, buf := p.code :: ctx.buf.drop 1 }
      (p.data.length + 4) = (p.data.length + 4, ctx.receive p dev) := by
  unfold readData
  have hread := readBytes_append p.body dev
  rw [p.length_body] at hread
  simp only [hread, p.length_body]
  have hbuf : (p.code :: ctx.buf.drop 1).take 1 ++ p.body ++
      (p.code :: ctx.buf.drop 1).drop (1 + (p.data.length + 4)) = p.received ctx.buf := by
    unfold Packet.received
    rw [p.length_bytes, Nat.add_comm 1, List.drop_succ_cons, List.drop_drop, Nat.add_comm 1]
    rfl
  rw [hbuf]
  rfl

theorem RymCtx.buf_receive (ctx : RymCtx σ) (p : Packet) (dev : List (Option Byte)) :
    (ctx.receive p dev).buf.getD 1 0 = p.seq ∧ (ctx.receive p dev).buf.getD 2 0 = ~~~p.seq :=
  ⟨rfl, rfl⟩

/-- A number and its complement. -/
theorem toNat_add_not (b : Byte) : b.toNat + (~~~b).toNat = 0xFF := by
  rw [BitVec.toNat_not]
  have := b.isLt
  omega

/-- What is done with a packet: the packet 0 is ignored as long as there was no
    data, any other one is given to the callback. -/
theorem RymCtx.transData_packet (cb : Callbacks σ) (ctx : RymCtx σ) (p : Packet)
    (dev : List (Option Byte)) (code : Byte) :
    transData cb { ctx with dev := p.body.map some ++ dev, buf := p.code :: ctx.buf.drop 1 }
        p.data.length code =
      if ctx.stage = .established ∧ p.seq = 0 then some (.eok, rymCodeNone, ctx.receive p dev)
      else (cb.onData ctx.user (p.payload ctx.buf) p.data.length).map fun (code, user) =>
        (.eok, code, { ctx.receive p dev with stage := .transmitting, user := user }) := by
  obtain ⟨h1, h2⟩ := ctx.buf_receive p dev
  unfold transData
  rw [ctx.readData_packet p dev]
  simp only [ne_eq, not_true, if_false, h1, h2, toNat_add_not]
  have hpayload : ∀ stage, RymCtx.payload { ctx.receive p dev with stage := stage } =
      p.payload ctx.buf := fun _ => p.payload_received ctx.buf
  by_cases hagain : ctx.stage = .established ∧ p.seq = 0
  · rw [if_pos hagain]
    exact if_pos hagain
  · rw [if_neg hagain]
    refine (if_neg hagain).trans ?_
    rw [hpayload, if_neg (by rw [p.readN_payload]; exact fun h => h rfl)]
    rfl

/-! ## All packets -/

/-- The data callback acknowledges whatever it takes. -/
def Callbacks.Acks (cb : Callbacks σ) : Prop :=
  ∀ user buf len code user', cb.onData user buf len = some (code, user') → code = rymCodeAck

/-- The calls of `on_data` for the packets `ps`: the buffer and the state after
    them. -/
def feed (cb : Callbacks σ) (buf : List Byte) (user : σ) : List Packet → Option (List Byte × σ)
  | [] => some (buf, user)
  | p :: ps =>
    match cb.onData user (p.payload buf) p.data.length with
    | none => none
    | some (_, user) => feed cb (p.received buf) user ps

/-- A pass of the loop takes one packet. -/
theorem RymCtx.transLoop_packet (cb : Callbacks σ) {ctx : RymCtx σ} {p : Packet}
    {dev : List (Option Byte)} (h : ctx.dev = p.onLine ++ dev) (fuel : ℕ) :
    ctx.transLoop cb (fuel + 1) =
      if ctx.stage = .established ∧ p.seq = 0 then (ctx.receive p dev).transLoop cb fuel
      else
        match cb.onData ctx.user (p.payload ctx.buf) p.data.length with
        | none => none
        | some (code, user) =>
          let ctx := { ctx.receive p dev with stage := .transmitting, user := user }
          if code = rymCodeCan then
            some (.can, (List.range rymEndSessionSendCanNum).foldl
              (fun ctx _ => ctx.putchar rymCodeCan) ctx)
          else if code = rymCodeAck then (ctx.putchar rymCodeAck).transLoop cb fuel
          else ctx.transLoop cb fuel := by
  rw [transLoop, RymCtx.readCode_packet h]
  simp only [if_neg p.code_ne_eot, p.packetSize_code, transData_packet]
  by_cases hagain : ctx.stage = .established ∧ p.seq = 0
  · simp only [if_pos hagain]
    rfl
  · simp only [if_neg hagain]
    cases cb.onData ctx.user (p.payload ctx.buf) p.data.length with
    | none => rfl
    | some r => rfl

/-- All packets of a transfer, from the first one with data on. -/
theorem RymCtx.transLoop_packets {cb : Callbacks σ} (hcb : cb.Acks) {ctx : RymCtx σ}
    {ps : List Packet} {dev : List (Option Byte)} {fuel : ℕ}
    (hdev : ctx.dev = ps.flatMap Packet.onLine ++ some rymCodeEot :: dev)
    (hfirst : ctx.stage ≠ .established ∨ ∀ p ∈ ps.head?, p.seq ≠ 0) (hfuel : ps.length < fuel) :
    ∃ sent stage, ctx.transLoop cb fuel = (feed cb ctx.buf ctx.user ps).map fun (buf, user) =>
      (.eok, ⟨dev, sent, stage, rymCodeEot :: buf.drop 1, user⟩) := by
  induction ps generalizing ctx fuel with
  | nil =>
    obtain ⟨fuel, rfl⟩ : ∃ m, fuel = m + 1 := ⟨fuel - 1, by omega⟩
    refine ⟨ctx.sent, ctx.stage, ?_⟩
    have hread : ctx.readCode = (rymCodeEot,
        { ctx with dev := dev, buf := rymCodeEot :: ctx.buf.drop 1 }) := by
      unfold readCode
      rw [hdev]
      rfl
    rw [transLoop, hread]
    rfl
  | cons p ps ih =>
    obtain ⟨fuel, rfl⟩ : ∃ m, fuel = m + 1 := ⟨fuel - 1, by simp at hfuel; omega⟩
    have hdev' : ctx.dev = p.onLine ++ (ps.flatMap Packet.onLine ++ some rymCodeEot :: dev) := by
      rw [hdev, List.flatMap_cons, List.append_assoc]
    have hnew : ¬ (ctx.stage = .established ∧ p.seq = 0) := by
      rintro ⟨hstage, hseq⟩
      rcases hfirst with h | h
      · exact h hstage
      · exact h p rfl hseq
    rw [transLoop_packet cb hdev', if_neg hnew, feed]
    cases hdata : cb.onData ctx.user (p.payload ctx.buf) p.data.length with
    | none => exact ⟨[], .none, rfl⟩
    | some r =>
      obtain ⟨code, user⟩ := r
      obtain rfl := hcb _ _ _ _ _ hdata
      have hne : rymCodeAck ≠ rymCodeCan := by decide
      simp only [if_neg hne, if_true]
      apply ih
      · rfl
      · left
        show RymStage.transmitting ≠ .established
        decide
      · simpa using hfuel

/-- The packet 0 again, any number of times. -/
theorem RymCtx.transLoop_again (cb : Callbacks σ) {ctx : RymCtx σ} {p : Packet}
    {dev : List (Option Byte)} {again : ℕ} (hstage : ctx.stage = .established) (hseq : p.seq = 0)
    (hbuf : p.received ctx.buf = ctx.buf)
    (hdev : ctx.dev = (List.replicate again p).flatMap Packet.onLine ++ dev) (fuel : ℕ) :
    ctx.transLoop cb (fuel + again) = { ctx with dev := dev }.transLoop cb fuel := by
  induction again generalizing ctx with
  | zero =>
    obtain rfl : ctx.dev = dev := hdev
    rfl
  | succ again ih =>
    have hdev' : ctx.dev =
        p.onLine ++ ((List.replicate again p).flatMap Packet.onLine ++ dev) := by
      rw [hdev, List.replicate_succ, List.flatMap_cons, List.append_assoc]
    rw [← Nat.add_assoc, transLoop_packet cb hdev', if_pos ⟨hstage, hseq⟩]
    have hrec : ∀ rest, ctx.receive p rest = { ctx with dev := rest } := by
      intro rest
      unfold receive
      rw [hbuf]
    rw [hrec]
    exact ih hstage hbuf rfl

/-! ## The whole transfer -/

/-- A packet 0. -/
structure Header extends Packet where
  seq_eq : seq = 0
  length_eq : data.length = 128

/-- A block of the file, which is sent `again` more times. -/
structure Block where
  data : List Byte
  again : ℕ
  length_data : data.length = 128 ∨ data.length = 1024

/-- The packets of the blocks, which are numbered from `n` on. -/
def packets : ℕ → List Block → List Packet
  | _, [] => []
  | n, b :: bs =>
    List.replicate (b.again + 1) ⟨BitVec.ofNat 8 n, b.data, b.length_data⟩ ++ packets (n + 1) bs

/-- A sender's part in a transfer: after some waits of the receiver the packet 0,
    the blocks and the end, and then anything. -/
structure Sender where
  waits : ℕ
  header : Header
  headerAgain : ℕ
  blocks : List Block
  tail : List (Option Byte)

/-- What arrives behind the first packet 0. -/
def Sender.devData (s : Sender) : List (Option Byte) :=
  (List.replicate s.headerAgain s.header.toPacket).flatMap Packet.onLine ++
    ((packets 1 s.blocks).flatMap Packet.onLine ++ some rymCodeEot :: s.tail)

/-- What arrives. -/
def Sender.dev (s : Sender) : List (Option Byte) :=
  List.replicate s.waits none ++ (s.header.onLine ++ s.devData)

/-- What the callbacks make of a transfer. -/
def session (cb : Callbacks σ) (s : Sender) (buf : List Byte) (user : σ) : Option σ :=
  match cb.onBegin user (s.header.payload buf) 128 with
  | none => none
  | some (_, user) =>
    match feed cb (s.header.received buf) user (packets 1 s.blocks) with
    | none => none
    | some (buf, user) => (cb.onEnd user (buf.drop 3) 128).map Prod.snd

theorem RymCtx.awaitSoh_waits {ctx : RymCtx σ} {p : Packet} {dev : List (Option Byte)} {waits : ℕ}
    (hcode : p.code = rymCodeSoh) (hdev : ctx.dev = List.replicate waits none ++ (p.onLine ++ dev))
    {tries : ℕ} (htries : waits < tries) :
    ∃ sent, ctx.awaitSoh tries = (true, { ctx with
      dev := p.body.map some ++ dev
      sent := sent
      buf := p.code :: ctx.buf.drop 1 }) := by
  induction waits generalizing ctx tries with
  | zero =>
    obtain ⟨tries, rfl⟩ : ∃ m, tries = m + 1 := ⟨tries - 1, by omega⟩
    refine ⟨ctx.sent ++ [rymCodeC], ?_⟩
    have hread : (ctx.putchar rymCodeC).readCode = (p.code,
        { ctx.putchar rymCodeC with
          dev := p.body.map some ++ dev
          buf := p.code :: ctx.buf.drop 1 }) := readCode_packet hdev
    rw [awaitSoh, hread]
    exact if_pos hcode
  | succ waits ih =>
    obtain ⟨tries, rfl⟩ : ∃ m, tries = m + 1 := ⟨tries - 1, by omega⟩
    have hread : (ctx.putchar rymCodeC).readCode = (rymCodeNone,
        { ctx.putchar rymCodeC with
          dev := List.replicate waits none ++ (p.onLine ++ dev) }) := by
      unfold readCode putchar
      rw [hdev, List.replicate_succ, List.cons_append]
    have hne : rymCodeNone ≠ rymCodeSoh := by decide
    rw [awaitSoh, hread]
    simp only [if_neg hne]
    exact ih rfl (by omega)

namespace Header

theorem code_eq (h : Header) : h.code = rymCodeSoh := if_pos h.length_eq

/-- The packet 0 passes the tests of the handshake. -/
theorem checkPacket0 (h : Header) (ctx : RymCtx σ) (dev : List (Option Byte)) :
    (ctx.receive h.toPacket dev).checkPacket0 = .eok := by
  obtain ⟨h1, h2⟩ := ctx.buf_receive h.toPacket dev
  have hpayload : (ctx.receive h.toPacket dev).payload = h.payload ctx.buf :=
    h.payload_received ctx.buf
  have hcrc := h.readN_payload ctx.buf
  rw [h.length_eq] at hcrc
  unfold RymCtx.checkPacket0
  rw [h1, h2, h.seq_eq, hpayload, hcrc]
  rfl

end Header

/-- The handshake ends with the call of `on_begin`. -/
theorem RymCtx.doHandshake_header (cb : Callbacks σ) {ctx : RymCtx σ} {h : Header}
    {dev : List (Option Byte)} {waits tmSec : ℕ} (hwaits : waits < tmSec)
    (hdev : ctx.dev = List.replicate waits none ++ (h.onLine ++ dev)) :
    ∃ sent, ctx.doHandshake cb tmSec =
      (cb.onBegin ctx.user (h.payload ctx.buf) 128).map fun (code, user) =>
        (if code = rymCodeAck then .eok else .can,
          ⟨dev, sent, .establishing, h.received ctx.buf, user⟩) := by
  have hstart : RymCtx.dev { ctx with stage := .establishing } =
      List.replicate waits none ++ (h.onLine ++ dev) := hdev
  obtain ⟨sent, hsoh⟩ := awaitSoh_waits h.code_eq hstart hwaits
  refine ⟨sent, ?_⟩
  have hread := readData_packet { ctx with stage := .establishing, sent := sent } h.toPacket dev
  rw [h.length_eq] at hread
  unfold doHandshake
  rw [hsoh]
  simp only [hread, h.checkPacket0, ne_eq, not_true, if_false]
  have hpayload :
      (receive { ctx with stage := .establishing, sent := sent } h.toPacket dev).payload =
        h.payload ctx.buf := h.payload_received ctx.buf
  rw [hpayload]
  rfl

/-- The first block has the number 1. -/
theorem seq_head_packets (bs : List Block) : ∀ p ∈ (packets 1 bs).head?, p.seq ≠ 0 := by
  cases bs with
  | nil => simp [packets]
  | cons b bs =>
    rw [packets, List.replicate_succ, List.cons_append, List.head?_cons]
    rintro p ⟨⟩
    show (BitVec.ofNat 8 1) ≠ 0
    decide

theorem length_le_flatMap_onLine (ps : List Packet) :
    ps.length ≤ (ps.flatMap Packet.onLine).length := by
  induction ps with
  | nil => exact Nat.zero_le 0
  | cons p ps ih => simp [Packet.onLine]; omega

/-- What follows the callback at the end changes nothing in its state. -/
theorem RymCtx.user_finish (ctx : RymCtx σ) : ctx.finish.2.user = ctx.user := by
  have hread : ∀ c : RymCtx σ, c.readCode.2.user = c.user := by
    intro c
    unfold readCode
    split <;> rfl
  have hlast : ∀ (c : RymCtx σ) code, (c.lastPacket code).2.user = c.user := by
    intro c code
    unfold lastPacket
    split_ifs
    · rfl
    · dsimp only
      split_ifs <;> rfl
  unfold finish
  dsimp only
  split_ifs
  · exact hread _
  · rw [hlast, hread]
    exact (hread _).trans (hread _)
  · rw [hlast, hread]
    exact hread _

/-- The packets of a transfer, the packet 0 again in front of them, up to the
    end. -/
theorem doTrans_packets {cb : Callbacks σ} (hcb : cb.Acks) (s : Sender) (sent : List Byte)
    (stage : RymStage) (buf : List Byte) (user : σ) :
    ∃ sent' stage', RymCtx.doTrans cb ⟨s.devData, sent, stage, s.header.received buf, user⟩ =
      (feed cb (s.header.received buf) user (packets 1 s.blocks)).map
        fun (buf, user) => (.eok, ⟨s.tail, sent', stage', rymCodeEot :: buf.drop 1, user⟩) := by
  have hagain := length_le_flatMap_onLine (List.replicate s.headerAgain s.header.toPacket)
  have hpackets := length_le_flatMap_onLine (packets 1 s.blocks)
  rw [List.length_replicate] at hagain
  obtain ⟨fuel, hfuel⟩ : ∃ fuel, s.devData.length + 1 = fuel + s.headerAgain :=
    ⟨s.devData.length + 1 - s.headerAgain, by
      unfold Sender.devData
      rw [List.length_append]
      omega⟩
  have hlt : (packets 1 s.blocks).length < fuel := by
    unfold Sender.devData at hfuel
    rw [List.length_append, List.length_append, List.length_cons] at hfuel
    omega
  have hskip : ∀ sent, RymCtx.transLoop cb (fuel + s.headerAgain)
      ⟨s.devData, sent, .established, s.header.received buf, user⟩ = RymCtx.transLoop cb fuel
        ⟨_, sent, .established, s.header.received buf, user⟩ := fun _ =>
    RymCtx.transLoop_again cb rfl s.header.seq_eq (s.header.received_received buf) rfl fuel
  show ∃ sent' stage', RymCtx.transLoop cb (s.devData.length + 1)
    ⟨s.devData, sent ++ [rymCodeAck] ++ [rymCodeC], .established, s.header.received buf, user⟩ = _
  rw [hfuel, hskip]
  exact RymCtx.transLoop_packets hcb rfl (Or.inr (seq_head_packets s.blocks)) hlt

/-- A transfer is one call of `on_begin`, one of `on_data` for every packet that
    comes in and one of `on_end`. -/
theorem doRecv_session {cb : Callbacks σ} (hcb : cb.Acks)
    (hbegin : ∀ user buf len code user', cb.onBegin user buf len = some (code, user') →
      code = rymCodeAck) {s : Sender} {tmSec : ℕ} (hwaits : s.waits < tmSec) (buf : List Byte)
    (user : σ) :
    (doRecv cb s.dev buf user tmSec).map (fun r => r.2.user) = session cb s buf user := by
  have hstart : RymCtx.dev ⟨s.dev, [], .none, buf, user⟩ =
      List.replicate s.waits none ++ (s.header.onLine ++ s.devData) := rfl
  obtain ⟨sent, hshake⟩ := RymCtx.doHandshake_header cb hwaits hstart
  unfold doRecv session
  dsimp only
  rw [hshake]
  cases hb : cb.onBegin user (s.header.payload buf) 128 with
  | none => rfl
  | some r =>
    obtain ⟨code, user⟩ := r
    obtain rfl := hbegin _ _ _ _ _ hb
    obtain ⟨sent', stage, htrans⟩ := doTrans_packets hcb s sent .establishing buf user
    simp only [Option.map_some, if_true, ne_eq, not_true, if_false, htrans]
    cases feed cb (s.header.received buf) user (packets 1 s.blocks) with
    | none => rfl
    | some r =>
      obtain ⟨buf, user⟩ := r
      have hpayload : (rymCodeEot :: buf.drop 1).drop 3 = buf.drop 3 := by
        rw [List.drop_succ_cons, List.drop_drop]
      simp only [Option.map_some, not_true, if_false]
      unfold RymCtx.doFin RymCtx.payload
      dsimp only
      rw [hpayload, Option.map_map]
      cases cb.onEnd user (buf.drop 3) 128 with
      | none => rfl
      | some r => exact congrArg some (RymCtx.user_finish _)

end Abox.Ymodem
