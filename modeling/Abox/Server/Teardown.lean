import Abox.Server.Link
import Abox.Server.Send

/-!
# What a failed send does

`tcpSend` (`Abox/src/client.c` lines 563–618) takes frames from `climqSend` and
sends each over the connection that is up. The result of the socket call is an
`int`; it is stored in the `rt_uint16_t` that held the length, and only a zero
there is taken for a failure.

* `sends_iff`: in a run all positive results are counted and all others tear the
  link down exactly when each result is a multiple of 65536 if and only if it is not
  positive.
* `negative_counted`: the result `-1` is counted as a frame that was sent.
-/

namespace Abox.Server

open Runs

/-! ## The functions -/

/-- `sendEthernetData` (`eth.c` lines 240–277) on a buffer of `len` bytes; `send` is the
    result of the socket call. -/
def sendEthernetData (len send : BitVec 32) : BitVec 32 :=
  if len = 0 then 0 else if buffLen < len.toNat then 0 else send

/-- `sendCC3100Data` (`cc3100.c` lines 156–162). -/
def sendCC3100Data (len send : BitVec 32) : BitVec 32 :=
  if len = 0 then 0 else if buffLen < len.toNat then 0 else send

/-- The state of the link, `panelSendnum` and how often `tcpSend` called
    `quitTcpConnect`. -/
structure Sender extends LinkInfo where
  panelSendnum : BitVec 32
  quits : ℕ

/-- The result of sending `len` bytes over the connection that is up. -/
def sendResult (style : CurrentConnectStyle) (len send : BitVec 32) : Option (BitVec 32) :=
  match style with
  | .clientWifiConnect => some (sendCC3100Data len send)
  | .clientEthConnect => some (sendEthernetData len send)
  | .nullDisconnenct => none

/-- A pass of the loop of `tcpSend`, `sbuf` being what was taken from `climqSend`. -/
def Sender.tcpSend (s : Sender) (sbuf : List Byte) (send : BitVec 32) : Sender :=
  let len : BitVec 16 := 8 + 2 + (StPackCmd.ofBytes sbuf).len
  if buffLen < len.toNat then s
  else
    let len : BitVec 16 :=
      match s.currentConnectStyle with
      | .clientWifiConnect => (sendCC3100Data (len.setWidth 32) send).setWidth 16
      | .clientEthConnect => (sendEthernetData (len.setWidth 32) send).setWidth 16
      | .nullDisconnenct => 1
    if ¬ 0 < len then
      { s with toLinkInfo := quitTcpConnect s.toLinkInfo, quits := s.quits + 1 }
    else { s with panelSendnum := s.panelSendnum + 1 }

/-- A pass of `tcpSend`, or a change of the link by another thread. -/
inductive SendEvent
  | tcpSend (sbuf : List Byte) (send : BitVec 32)
  | link (l : LinkInfo)

def Sender.step (s : Sender) : SendEvent → Sender
  | .tcpSend sbuf send => s.tcpSend sbuf send
  | .link l => { s with toLinkInfo := l }

/-! ## What should happen -/

/-- The result of a pass with a connection up whose frame is not too long. -/
def Sender.result (s : Sender) (sbuf : List Byte) (send : BitVec 32) : Option (BitVec 32) :=
  let len : BitVec 16 := 8 + 2 + (StPackCmd.ofBytes sbuf).len
  if buffLen < len.toNat then none else sendResult s.currentConnectStyle (len.setWidth 32) send

/-- A positive result is counted, any other tears the link down. -/
def SendRight (s : Sender) : SendEvent → Prop
  | .tcpSend sbuf send => ∀ r, s.result sbuf send = some r →
      (s.tcpSend sbuf send).panelSendnum =
          (if 0 < r.toInt then s.panelSendnum + 1 else s.panelSendnum) ∧
        (s.tcpSend sbuf send).quits = (if 0 < r.toInt then s.quits else s.quits + 1)
  | .link _ => True

/-- The result is a multiple of 65536 if and only if it is not positive. -/
def SendOk (s : Sender) : SendEvent → Prop
  | .tcpSend sbuf send => ∀ r, s.result sbuf send = some r → (r.toInt ≤ 0 ↔ (65536 : ℤ) ∣ r.toInt)
  | .link _ => True

/-! ## The conversion -/

/-- What is left of a result in the 16 bits. -/
theorem setWidth_eq_zero_iff (r : BitVec 32) :
    r.setWidth 16 = 0 ↔ (65536 : ℤ) ∣ r.toInt := by
  have hnat : r.setWidth 16 = 0 ↔ r.toNat % 65536 = 0 := by
    rw [← BitVec.toNat_inj, BitVec.toNat_setWidth]
    rfl
  rw [hnat, BitVec.toInt_eq_toNat_cond]
  split_ifs <;> omega

/-- A pass with a result does what the 16 bits say. -/
theorem tcpSend_of_result {s : Sender} {sbuf : List Byte} {send r : BitVec 32}
    (h : s.result sbuf send = some r) :
    s.tcpSend sbuf send =
      if r.setWidth 16 = 0 then
        { s with toLinkInfo := quitTcpConnect s.toLinkInfo, quits := s.quits + 1 }
      else { s with panelSendnum := s.panelSendnum + 1 } := by
  have hpos : ∀ n : BitVec 16, ¬ 0 < n ↔ n = 0 := fun n => by bv_omega
  unfold Sender.result at h
  unfold Sender.tcpSend
  by_cases hlen : buffLen < (8 + 2 + (StPackCmd.ofBytes sbuf).len : BitVec 16).toNat
  · rw [if_pos hlen] at h
    cases h
  · rw [if_neg hlen] at h ⊢
    unfold sendResult at h
    cases hstyle : s.currentConnectStyle with
    | nullDisconnenct =>
      rw [hstyle] at h
      cases h
    | clientWifiConnect =>
      rw [hstyle] at h
      obtain rfl := Option.some.inj h
      simp only [hpos]
    | clientEthConnect =>
      rw [hstyle] at h
      obtain rfl := Option.some.inj h
      simp only [hpos]

theorem sendRight_iff (s : Sender) (e : SendEvent) : SendRight s e ↔ SendOk s e := by
  cases e with
  | link l => exact Iff.rfl
  | tcpSend sbuf send =>
    apply forall₂_congr
    intro r hr
    rw [tcpSend_of_result hr, ← setWidth_eq_zero_iff]
    have hne : s.panelSendnum + 1 ≠ s.panelSendnum := by bv_omega
    by_cases hpos : 0 < r.toInt
    · rw [if_pos hpos, if_pos hpos, iff_false_left (Int.not_le.2 hpos)]
      split_ifs with hzero
      · simp [hzero]
      · exact iff_of_true ⟨rfl, rfl⟩ hzero
    · rw [if_neg hpos, if_neg hpos, iff_true_left (Int.not_lt.1 hpos)]
      split_ifs with hzero
      · exact iff_of_true ⟨rfl, rfl⟩ hzero
      · exact iff_of_false (fun h => hne h.1) hzero

/-! ## Runs -/

/-- A run: the events and the states they lead to. -/
def Sender.run (s : Sender) : List SendEvent → List (SendEvent × Sender)
  | [] => []
  | e :: es => (e, s.step e) :: (s.step e).run es

/-- In a run the positive results are counted and all others tear the link down,
    exactly when none of them is misjudged by its low 16 bits. -/
theorem sends_iff (s : Sender) (es : List SendEvent) :
    AllSteps SendRight s (s.run es) ↔ AllSteps SendOk s (s.run es) := by
  induction es generalizing s with
  | nil => exact Iff.rfl
  | cons e es ih => exact and_congr (sendRight_iff s e) (ih (s.step e))

/-- A connection over ethernet is up. -/
def Sender.up : Sender := ⟨⟨.connectServer, .clientEthConnect, .panelConEth⟩, 0, 0⟩

/-- A heartbeat without Cboxes. -/
def emptyHeart : List Byte := [0x23, 1, 1, 0, 0, 0, 0, 0, 0, 0]

/-- A send that fails with `-1` is counted, and the link stays up. -/
theorem negative_counted :
    Sender.up.result emptyHeart (-1) = some (-1) ∧ (-1 : BitVec 32).toInt = -1 ∧
      (Sender.up.tcpSend emptyHeart (-1)).panelSendnum = 1 ∧
      (Sender.up.tcpSend emptyHeart (-1)).quits = 0 ∧
      ¬ ∀ es : List SendEvent, AllSteps SendRight Sender.up (Sender.up.run es) := by
  refine ⟨by decide, by decide, by decide, by decide, ?_⟩
  intro h
  have hquits := ((h [.tcpSend emptyHeart (-1)]).1 (-1) (by decide)).2
  exact absurd hquits (by decide)

end Abox.Server
