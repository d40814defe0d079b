import Abox.Frame.Crc

/-!
# Frames from the server

Model of `processDataFromServer` (`Abox/src/client.c` lines 227–336) and of the
receiving loop of `ethChat` (`include/drivers/eth/eth.c` lines 50–83). What is
received is appended to `Eth_Rev_Buff`; each call takes the complete frames off
its front. Bytes that start no frame are skipped, and a buffer of more than
`BUFF_LEN` bytes is thrown away.

A frame for the device itself goes to `mq_send`, any other one to
`recvServerData`, unless an update is running: then it is discarded. The calls
of `recvServerData` for one frame, with its repetitions and `cleanPool`, are in
`Abox.Radio.Calls`; here they count as one.
-/

namespace Abox.Server

/-- `sizeof(Eth_Rev_Buff)`. -/
def sizeofEthRevBuff : ℕ := 2048

/-- `CSOH` and `SSOH`. -/
def IsHead (b : Byte) : Prop := b = 0x23 ∨ b = 0x24

instance (b : Byte) : Decidable (IsHead b) := inferInstanceAs (Decidable (_ ∨ _))

/-- What becomes of a frame. -/
inductive Target
  | mqSend
  | recvServerData
  | discarded
  deriving DecidableEq

/-- A frame, the number of bytes that were received before it, and what becomes
    of it. -/
structure Dispatch where
  offset : ℕ
  target : Target
  frame : List Byte

/-- `Eth_Rev_Buff` and `Eth_recv_len`, the number of bytes that have left the
    buffer, and all frames that were handled. -/
structure State where
  buf : List Byte
  recvLen : ℕ
  offset : ℕ
  log : List Dispatch

/-- The buffer is empty and zeroed. -/
def State.empty : State := ⟨List.replicate sizeofEthRevBuff 0, 0, 0, []⟩

section

-- `Sys_Setup.app.id`, and `Cdma_Info.AT_status` when the frame at an offset is handled
variable (appId : BitVec 32) (atStatus : ℕ → AtStatus)

/-- Where a frame goes (lines 266–277). -/
def target (packcmd : StPackCmd) (status : AtStatus) : Target :=
  if packcmd.id = appId then .mqSend
  else if status ≠ .atSerUpdata ∧ status ≠ .atYmodemUpdata then .recvServerData
  else .discarded

/-- The inner loop (lines 241–251). -/
def State.skip (s : State) : State :=
  if 0 < s.recvLen ∧ ¬ IsHead (s.buf.getD 0 0) then
    State.skip
      { s with buf := dataLeft s.buf 1, recvLen := s.recvLen - 1, offset := s.offset + 1 }
  else s
termination_by s.recvLen
decreasing_by
  show s.recvLen - 1 < s.recvLen
  omega

theorem State.skip_recvLen_le (s : State) : s.skip.recvLen ≤ s.recvLen := by
  induction s using State.skip.induct with
  | case1 s h ih =>
    rw [State.skip, if_pos h]
    exact le_trans ih (Nat.sub_le _ _)
  | case2 s h =>
    rw [State.skip, if_neg h]

/-- The checksum of no bytes is not zero. -/
theorem ModbusCrc16_nil (buf : List Byte) : ModbusCrc16 (readN buf 0) ≠ 0 := by
  show ModbusCrc16 [] ≠ 0
  decide

/-- The outer loop (lines 239–323). The message of line 318 reads `head->cmd` through a
    pointer that is never set; what comes of this read is not modelled. -/
def State.scan (s : State) : State :=
  let s1 := s.skip
  let packcmd := StPackCmd.ofBytes s1.buf
  let tlen := packcmd.frameLen
  if s1.recvLen < tlen then s1
  else if ModbusCrc16 (readN s1.buf tlen) = 0 then
    let s2 : State :=
      { buf := dataLeft s1.buf tlen
        recvLen := s1.recvLen - tlen
        offset := s1.offset + tlen
        log := s1.log ++
          [⟨s1.offset, target appId packcmd (atStatus s1.offset), readN s1.buf tlen⟩] }
    if sizeofStPackCmd + 2 ≤ s2.recvLen then State.scan s2 else s2
  else s1
termination_by s.recvLen
decreasing_by
  rename_i hlen hcrc _
  have hle : s1.recvLen ≤ s.recvLen := s.skip_recvLen_le
  have hpos : tlen ≠ 0 := by
    intro h0
    rw [h0] at hcrc
    exact ModbusCrc16_nil _ hcrc
  show s1.recvLen - tlen < s.recvLen
  change ¬ s1.recvLen < tlen at hlen
  omega

/-- `processDataFromServer`. -/
def State.processDataFromServer (s : State) : State :=
  let s := s.scan appId atStatus
  if buffLen < s.recvLen then
    { s with
      buf := List.replicate s.buf.length 0
      recvLen := 0
      offset := s.offset + s.recvLen }
  else s

/-- A pass of `ethChat` that receives `chunk`. -/
def State.recv (s : State) (chunk : List Byte) : State :=
  State.processDataFromServer appId atStatus
    { s with
      buf := s.buf.take s.recvLen ++ chunk ++ s.buf.drop (s.recvLen + chunk.length)
      recvLen := s.recvLen + chunk.length }

/-- Passes that receive the given chunks. -/
def State.recvAll (s : State) (chunks : List (List Byte)) : State :=
  chunks.foldl (State.recv appId atStatus) s

/-- The chunks are such as `recv` can return: not empty, and no longer than the
    rest of the buffer. -/
def Fits : State → List (List Byte) → Prop
  | _, [] => True
  | s, chunk :: chunks =>
    chunk ≠ [] ∧ chunk.length ≤ sizeofEthRevBuff - s.recvLen ∧
      Fits (s.recv appId atStatus chunk) chunks

end

end Abox.Server
