import Abox.Telnet.RingBuffer

/-!
# The telnet session

Model of `telnet.c` (`Abox/src/telnet.c`) as it is compiled without `RT_USING_POSIX`: the
telnet thread decodes what it receives into `rx_ringbuffer` and answers the options, the shell
reads from there, and the telnet thread, the shell and whoever else prints to the console write
into `tx_ringbuffer` and send from there. The threads run in any order between the calls that
hold a mutex.

`rx_indicate` (lines 206–218) only wakes the shell when it waits in front of the device; it is
left out, as is what is not about the bytes of a connection (`client_close`, the console).
-/

namespace Abox.Telnet

/-! ## Model -/

/-- `STATE_NORMAL` to `STATE_DONT`. `STATE_CLOSE` is never set. -/
inductive TelnetState
  | stateNormal
  | stateIac
  | stateWill
  | stateWont
  | stateDo
  | stateDont
  deriving DecidableEq

def telnetIac : Byte := 255
def telnetWill : Byte := 251
def telnetWont : Byte := 252
def telnetDo : Byte := 253
def telnetDont : Byte := 254

/-- `'\r'` and `'\n'`. -/
def isoCr : Byte := 0x0d
def isoNl : Byte := 0x0a

/-- `struct telnet_session`, with the count of the semaphore `read_notice`. -/
structure TelnetSession where
  rxRingbuffer : RtRingbuffer
  txRingbuffer : RtRingbuffer
  state : TelnetState
  readNotice : BitVec 16

/-- Where a thread stands. -/
inductive Pc
  /-- Outside of the functions of the session. -/
  | outside
  /-- In front of `rt_sem_release` (line 198). -/
  | release
  /-- In front of `rt_ringbuffer_get` (line 101). -/
  | get
  /-- In front of `send` (line 107), with what is in `tx_buffer`. -/
  | send (txBuffer : List Byte)
  /-- Behind `rt_sem_take` in `telnet_read` (line 266). -/
  | read (size : ℕ)
  deriving DecidableEq

namespace TelnetSession

/-- The first part of `send_option_to_client`, up to `send_to_client`. -/
def sendOption (t : TelnetSession) (option value : Byte) : Option (Pc × TelnetSession) :=
  (t.txRingbuffer.put [telnetIac, option, value]).map fun r =>
    (.get, { t with txRingbuffer := r.2, state := .stateNormal })

/-- What `process_rx` does with one byte, up to the next call that other threads can run
    before. -/
def processRx (t : TelnetSession) (data : Byte) : Option (Pc × TelnetSession) :=
  match t.state with
  | .stateIac =>
    if data = telnetIac then
      (t.rxRingbuffer.putchar data).map fun r =>
        (.outside, { t with rxRingbuffer := r.2, state := .stateNormal })
    else
      some (.outside, { t with
        state :=
          if data = telnetWill then .stateWill
          else if data = telnetWont then .stateWont
          else if data = telnetDo then .stateDo
          else if data = telnetDont then .stateDont
          else .stateNormal })
  | .stateWill => t.sendOption telnetDont data
  | .stateWont => t.sendOption telnetDont data
  | .stateDo => t.sendOption telnetWont data
  | .stateDont => t.sendOption telnetWont data
  | .stateNormal =>
    if data = telnetIac then some (.outside, { t with state := .stateIac })
    else if data ≠ isoCr then
      (t.rxRingbuffer.putchar data).map fun r => (.release, { t with rxRingbuffer := r.2 })
    else some (.outside, t)

/-- `'\r'` in front of `'\n'` (lines 294–295). -/
def putCr (tx : RtRingbuffer) (ptr : Byte) : Option RtRingbuffer :=
  if ptr = isoNl then (tx.putchar isoCr).map Prod.snd else some tx

/-- The loop of `telnet_write` (lines 292–301): the number of characters taken. -/
def writeLoop (tx : RtRingbuffer) : List Byte → Option (ℕ × RtRingbuffer)
  | [] => some (0, tx)
  | ptr :: buffer => do
    let tx ← putCr tx ptr
    let r ← tx.putchar ptr
    if r.1 = 0 then some (0, r.2)
    else (writeLoop r.2 buffer).map fun w => (w.1 + 1, w.2)

end TelnetSession

/-! ## Specification -/

/-- The answer to an option: none is wanted from the client, and none is offered. -/
def answer (state : TelnetState) (data : Byte) : List Byte :=
  match state with
  | .stateWill => [telnetIac, telnetDont, data]
  | .stateWont => [telnetIac, telnetDont, data]
  | .stateDo => [telnetIac, telnetWont, data]
  | .stateDont => [telnetIac, telnetWont, data]
  | _ => []

/-- Lines end with `"\r\n"` on the wire. -/
def crlf (buffer : List Byte) : List Byte :=
  buffer.flatMap fun ptr => if ptr = isoNl then [isoCr, isoNl] else [ptr]

/-- The state behind a byte. -/
def next (state : TelnetState) (data : Byte) : TelnetState :=
  match state with
  | .stateNormal => if data = telnetIac then .stateIac else .stateNormal
  | .stateIac =>
    if data = telnetWill then .stateWill
    else if data = telnetWont then .stateWont
    else if data = telnetDo then .stateDo
    else if data = telnetDont then .stateDont
    else .stateNormal
  | _ => .stateNormal

/-- The byte of the text that a byte stands for, if it does. -/
def datum (state : TelnetState) (data : Byte) : List Byte :=
  match state with
  | .stateNormal => if data = telnetIac ∨ data = isoCr then [] else [data]
  | .stateIac => if data = telnetIac then [data] else []
  | _ => []

/-- The text in what is received. -/
def decode : TelnetState → List Byte → List Byte
  | _, [] => []
  | state, data :: received => datum state data ++ decode (next state data) received

/-- The state behind what is received. -/
def nexts (state : TelnetState) (received : List Byte) : TelnetState := received.foldl next state

/-- The number of bytes of the text that are escaped. -/
def escapes : TelnetState → List Byte → ℕ
  | _, [] => 0
  | state, data :: received =>
    (if state = .stateIac then (datum state data).length else 0) +
      escapes (next state data) received

/-! ## Threads -/

/-- The session with its threads: 0 is the telnet thread, 1 the shell. What follows `pc` is kept
    to be compared: the bytes received, the bytes of the text in them, each with whether
    `rx_ringbuffer` had room for it, what the calls of `telnet_read` returned and what of it
    came from the ring buffer, the bytes put into `tx_ringbuffer`, and the blocks that were
    taken from there and those that were sent, each with its thread. -/
structure System where
  session : TelnetSession
  pc : ℕ → Pc
  received : List Byte
  text : List (Byte × Bool)
  returned : List (List Byte)
  delivered : List Byte
  accepted : List Byte
  taken : List (ℕ × List Byte)
  sent : List (ℕ × List Byte)

/-- What can happen next. -/
inductive Act
  /-- The telnet thread has received a byte. -/
  | receive (data : Byte)
  /-- The telnet thread calls `send_to_client` in its loop (line 412). -/
  | flush
  /-- A thread calls `telnet_write`. -/
  | write (tid : ℕ) (buffer : List Byte)
  /-- The shell calls `telnet_read`, and the semaphore lets it in. -/
  | take (size : ℕ)
  /-- A thread goes on. -/
  | advance (tid : ℕ)

namespace System

/-- The next call of a thread that is within a function. -/
def advance (s : System) (tid : ℕ) : Option System :=
  match s.pc tid with
  | .outside => none
  | .release =>
    some { s with
      session := { s.session with readNotice := s.session.readNotice + 1 }
      pc := Function.update s.pc tid .outside }
  | .get =>
    (s.session.txRingbuffer.get 32).map fun r =>
      if 0 < r.1.length then
        { s with
          session := { s.session with txRingbuffer := r.2 }
          pc := Function.update s.pc tid (.send r.1)
          taken := s.taken ++ [(tid, r.1)] }
      else
        { s with
          session := { s.session with txRingbuffer := r.2 }
          pc := Function.update s.pc tid .outside }
  | .send txBuffer =>
    some { s with
      pc := Function.update s.pc tid .get
      sent := s.sent ++ [(tid, txBuffer)] }
  | .read size =>
    (s.session.rxRingbuffer.get (size % 2 ^ 16)).map fun r =>
      { s with
        session := { s.session with rxRingbuffer := r.2 }
        pc := Function.update s.pc tid .outside
        returned := s.returned ++ [if r.1.length = 0 then [0] else r.1]
        delivered := s.delivered ++ r.1 }

/-- The bytes that a call puts into `tx_ringbuffer`, if they all fit. -/
def output (s : System) : Act → List Byte
  | .receive data => answer s.session.state data
  | .write _ buffer => crlf buffer
  | _ => []

/-- The act is one the threads can take. -/
def Enabled (s : System) : Act → Prop
  | .receive _ => s.pc 0 = .outside
  | .flush => s.pc 0 = .outside
  | .write tid _ => s.pc tid = .outside
  | .take _ => s.pc 1 = .outside ∧ s.session.readNotice ≠ 0
  | .advance tid => s.pc tid ≠ .outside

instance (s : System) : (a : Act) → Decidable (s.Enabled a)
  | .receive _ => inferInstanceAs (Decidable (s.pc 0 = .outside))
  | .flush => inferInstanceAs (Decidable (s.pc 0 = .outside))
  | .write tid _ => inferInstanceAs (Decidable (s.pc tid = .outside))
  | .take _ => inferInstanceAs (Decidable (s.pc 1 = .outside ∧ s.session.readNotice ≠ 0))
  | .advance tid => inferInstanceAs (Decidable (s.pc tid ≠ .outside))

/-- One act; `none` if no thread can take it, or if it leaves a buffer. -/
def step (s : System) (a : Act) : Option System :=
  if s.Enabled a then
    let accepted := s.accepted ++ (s.output a).take s.session.txRingbuffer.spaceLen
    match a with
    | .receive data =>
      (s.session.processRx data).map fun r =>
        { s with
          session := r.2
          pc := Function.update s.pc 0 r.1
          received := s.received ++ [data]
          text := s.text ++ (datum s.session.state data).map
            fun b => (b, decide (s.session.rxRingbuffer.spaceLen ≠ 0))
          accepted := accepted }
    | .flush => some { s with pc := Function.update s.pc 0 .get }
    | .write tid buffer =>
      (TelnetSession.writeLoop s.session.txRingbuffer buffer).map fun r =>
        { s with
          session := { s.session with txRingbuffer := r.2 }
          pc := Function.update s.pc tid .get
          accepted := accepted }
    | .take size =>
      some { s with
        session := { s.session with readNotice := s.session.readNotice - 1 }
        pc := Function.update s.pc 1 (.read size) }
    | .advance tid => s.advance tid
  else none

/-- A session when the client is connected: the telnet thread is in its loop, in front of what
    is still in `tx_ringbuffer`, the others are outside. -/
def start (t : TelnetSession) : System :=
  { session := t
    pc := Function.update (fun _ => .outside) 0 .get
    received := []
    text := []
    returned := []
    delivered := []
    accepted := []
    taken := []
    sent := [] }

end System

/-! ## One call -/

theorem decode_append (state : TelnetState) (a b : List Byte) :
    decode state (a ++ b) = decode state a ++ decode (nexts state a) b := by
  induction a generalizing state with
  | nil => rfl
  | cons data a ih => simp [decode, nexts, ih]

theorem escapes_append (state : TelnetState) (a b : List Byte) :
    escapes state (a ++ b) = escapes state a + escapes (nexts state a) b := by
  induction a generalizing state with
  | nil => simp [escapes, nexts]
  | cons data a ih => simp [escapes, nexts, ih, Nat.add_assoc]

theorem nexts_append (state : TelnetState) (a b : List Byte) :
    nexts state (a ++ b) = nexts (nexts state a) b := List.foldl_append

variable {rb : RtRingbuffer} {t : TelnetSession} {q p : List Byte}

/-- A character is put behind the queue if there is room. -/
theorem RtRingbuffer.Represents.putchar_take (h : rb.Represents q) (ch : Byte) :
    ∃ rb', rb.putchar ch = some (min 1 rb.spaceLen, rb') ∧
      rb'.Represents (q ++ [ch].take rb.spaceLen) ∧ rb'.spaceLen = rb.spaceLen - 1 := by
  have hspace := h.spaceLen_eq
  have hfits := h.holds.fits
  obtain ⟨rb', hput, hrep⟩ := h.putchar ch
  have hsize := RtRingbuffer.bufferSize_putchar hput
  have hspace' := hrep.spaceLen_eq
  by_cases hroom : q.length < rb.bufferSize
  · rw [if_pos hroom] at hput hrep hspace'
    have hone : min 1 rb.spaceLen = 1 := by omega
    have htake : [ch].take rb.spaceLen = [ch] := List.take_of_length_le (by simp; omega)
    refine ⟨rb', by rw [hone]; exact hput, by rw [htake]; exact hrep, ?_⟩
    rw [hspace', hsize, List.length_append, List.length_singleton]
    omega
  · rw [if_neg hroom] at hput hrep hspace'
    have hzero : rb.spaceLen = 0 := by omega
    rw [hzero, Nat.min_zero, List.take_zero, List.append_nil, Nat.zero_sub]
    exact ⟨rb', hput, hrep, by rw [hspace', hsize]; omega⟩

/-- What a byte does: where the telnet thread stands, and what has been put where. -/
structure Received (t : TelnetSession) (q p : List Byte) (data : Byte) (pc : Pc)
    (t' : TelnetSession) : Prop where
  state : t'.state = next t.state data
  readNotice : t'.readNotice = t.readNotice
  rx : t'.rxRingbuffer.Represents (q ++ (datum t.state data).take t.rxRingbuffer.spaceLen)
  tx : t'.txRingbuffer.Represents (p ++ (answer t.state data).take t.txRingbuffer.spaceLen)
  pc : pc = if answer t.state data ≠ [] then .get
    else if t.state = .stateNormal ∧ datum t.state data ≠ [] then .release else .outside

/-- A byte is answered, or put into the text, or only changes the state. -/
theorem processRx_eq (t : TelnetSession) (data : Byte) :
    t.processRx data =
      if answer t.state data ≠ [] then
        (t.txRingbuffer.put (answer t.state data)).map fun r =>
          (.get, { t with txRingbuffer := r.2, state := next t.state data })
      else if datum t.state data ≠ [] then
        (t.rxRingbuffer.putchar data).map fun r =>
          (if t.state = .stateNormal then .release else .outside,
            { t with rxRingbuffer := r.2, state := next t.state data })
      else some (.outside, { t with state := next t.state data }) := by
  obtain ⟨rx, tx, state, readNotice⟩ := t
  cases state with
  | stateNormal =>
    by_cases hiac : data = telnetIac
    · simp [TelnetSession.processRx, answer, datum, next, hiac]
    · by_cases hcr : data = isoCr
      · simp [TelnetSession.processRx, answer, datum, next, hcr, isoCr, telnetIac]
      · simp [TelnetSession.processRx, answer, datum, next, hiac, hcr]
  | stateIac =>
    by_cases hiac : data = telnetIac
    · subst hiac
      simp [TelnetSession.processRx, answer, datum, next, telnetIac, telnetWill, telnetWont,
        telnetDo, telnetDont]
    · simp [TelnetSession.processRx, answer, datum, next, hiac]
  | stateWill => simp [TelnetSession.processRx, TelnetSession.sendOption, answer, next]
  | stateWont => simp [TelnetSession.processRx, TelnetSession.sendOption, answer, next]
  | stateDo => simp [TelnetSession.processRx, TelnetSession.sendOption, answer, next]
  | stateDont => simp [TelnetSession.processRx, TelnetSession.sendOption, answer, next]

/-- Where there is a text, there is no answer. -/
theorem answer_eq_nil_of_datum {state : TelnetState} {data : Byte} (h : datum state data ≠ []) :
    answer state data = [] := by
  cases state <;> simp [datum] at h <;> rfl

theorem datum_eq {state : TelnetState} {data : Byte} (h : datum state data ≠ []) :
    datum state data = [data] := by
  cases state with
  | stateNormal => by_cases hd : data = telnetIac ∨ data = isoCr <;> simp [datum, hd] at h ⊢
  | stateIac => by_cases hd : data = telnetIac <;> simp [datum, hd] at h ⊢
  | stateWill => exact absurd rfl h
  | stateWont => exact absurd rfl h
  | stateDo => exact absurd rfl h
  | stateDont => exact absurd rfl h

theorem processRx_spec (data : Byte) (hrx : t.rxRingbuffer.Represents q)
    (htx : t.txRingbuffer.Represents p) :
    ∃ pc t', t.processRx data = some (pc, t') ∧ Received t q p data pc t' := by
  rw [processRx_eq]
  by_cases hanswer : answer t.state data ≠ []
  · have hdatum : datum t.state data = [] := by
      by_contra h
      exact hanswer (answer_eq_nil_of_datum h)
    obtain ⟨tx, hput, hrep⟩ := htx.put (answer t.state data)
    rw [← htx.spaceLen_eq] at hrep
    rw [if_pos hanswer, hput]
    refine ⟨_, _, rfl, rfl, rfl, ?_, hrep, by rw [if_pos hanswer]⟩
    rw [hdatum, List.take_nil, List.append_nil]
    exact hrx
  rw [if_neg hanswer]
  have hnil : answer t.state data = [] := not_not.1 hanswer
  have htx' : t.txRingbuffer.Represents
      (p ++ (answer t.state data).take t.txRingbuffer.spaceLen) := by
    rw [hnil, List.take_nil, List.append_nil]
    exact htx
  by_cases hdatum : datum t.state data ≠ []
  · obtain ⟨rx, hput, hrep, -⟩ := hrx.putchar_take data
    rw [if_pos hdatum, hput]
    refine ⟨_, _, rfl, rfl, rfl, ?_, htx', ?_⟩
    · rw [datum_eq hdatum]
      exact hrep
    · rw [if_neg hanswer]
      by_cases hstate : t.state = .stateNormal
      · rw [if_pos hstate, if_pos ⟨hstate, hdatum⟩]
      · rw [if_neg hstate, if_neg fun h => hstate h.1]
  · rw [if_neg hdatum]
    refine ⟨_, _, rfl, rfl, rfl, ?_, htx', ?_⟩
    · rw [not_not.1 hdatum, List.take_nil, List.append_nil]
      exact hrx
    · rw [if_neg hanswer, if_neg fun h => hdatum h.2]

/-- What goes in front of a character on the wire. -/
def before (ptr : Byte) : List Byte := if ptr = isoNl then [isoCr] else []

theorem crlf_cons (ptr : Byte) (buffer : List Byte) :
    crlf (ptr :: buffer) = before ptr ++ ptr :: crlf buffer := by
  unfold crlf before
  by_cases hnl : ptr = isoNl <;> simp [hnl]

theorem putCr_spec (ptr : Byte) (h : rb.Represents p) :
    ∃ rb', TelnetSession.putCr rb ptr = some rb' ∧
      rb'.Represents (p ++ (before ptr).take rb.spaceLen) ∧
      rb'.spaceLen = rb.spaceLen - (before ptr).length := by
  unfold TelnetSession.putCr before
  by_cases hnl : ptr = isoNl
  · obtain ⟨rb', hput, hrep, hspace⟩ := h.putchar_take isoCr
    rw [if_pos hnl, if_pos hnl, hput]
    exact ⟨rb', rfl, hrep, hspace⟩
  · rw [if_neg hnl, if_neg hnl, List.take_nil, List.append_nil]
    exact ⟨rb, rfl, h, rfl⟩

/-- The characters that `telnet_write` takes are those whose bytes all fit. -/
structure Written (room : ℕ) (buffer : List Byte) (k : ℕ) : Prop where
  le : k ≤ buffer.length
  fits : (crlf (buffer.take k)).length ≤ room
  full : k < buffer.length → room < (crlf (buffer.take (k + 1))).length

/-- `telnet_write` puts in what fits of the bytes on the wire, also of the last character. -/
theorem writeLoop_spec (buffer : List Byte) (h : rb.Represents p) :
    ∃ k tx, TelnetSession.writeLoop rb buffer = some (k, tx) ∧ Written rb.spaceLen buffer k ∧
      tx.Represents (p ++ (crlf buffer).take rb.spaceLen) := by
  induction buffer generalizing rb p with
  | nil =>
    refine ⟨0, rb, rfl, ⟨le_rfl, Nat.zero_le _, fun h => absurd h (Nat.lt_irrefl _)⟩, ?_⟩
    rw [crlf, List.flatMap_nil, List.take_nil, List.append_nil]
    exact h
  | cons ptr buffer ih =>
    obtain ⟨rb1, hcr, hrep1, hspace1⟩ := putCr_spec ptr h
    obtain ⟨rb2, hput2, hrep2, hspace2⟩ := hrep1.putchar_take ptr
    unfold TelnetSession.writeLoop
    rw [hcr, Option.bind_eq_bind, Option.bind_some, hput2, Option.bind_eq_bind, Option.bind_some]
    dsimp only
    by_cases hroom : rb1.spaceLen = 0
    · -- what goes before fills the buffer
      rw [hroom, if_pos (Nat.min_zero 1)]
      refine ⟨0, rb2, rfl, ⟨Nat.zero_le _, Nat.zero_le _, fun _ => ?_⟩, ?_⟩
      · rw [List.take_succ_cons, List.take_zero, crlf_cons, List.length_append, List.length_cons]
        omega
      · rw [hroom, List.take_zero, List.append_nil] at hrep2
        rw [crlf_cons, List.take_append_of_le_length (by omega)]
        exact hrep2
    · rw [if_neg (by omega)]
      obtain ⟨k, tx, hloop, hw, hrep⟩ := ih hrep2
      have hfits := hw.fits
      rw [hloop]
      refine ⟨k + 1, tx, rfl, ⟨Nat.succ_le_succ hw.le, ?_, fun hlt => ?_⟩, ?_⟩
      · rw [List.take_succ_cons, crlf_cons, List.length_append, List.length_cons]
        omega
      · have hfull := hw.full (by simpa using hlt)
        rw [List.take_succ_cons, crlf_cons, List.length_append, List.length_cons]
        omega
      · have hone : [ptr].take rb1.spaceLen = [ptr] :=
          List.take_of_length_le (by rw [List.length_singleton]; omega)
        have hlen : (before ptr ++ [ptr]).length = (before ptr).length + 1 := by
          rw [List.length_append, List.length_singleton]
        have hcrlf : (crlf (ptr :: buffer)).take rb.spaceLen =
            before ptr ++ [ptr] ++ (crlf buffer).take rb2.spaceLen := by
          rw [crlf_cons, List.append_cons, List.take_append, List.take_of_length_le (by omega),
            hlen]
          congr 2
          omega
        rw [hone, List.take_of_length_le (by omega)] at hrep
        rw [hcrlf, ← List.append_assoc, ← List.append_assoc]
        exact hrep

end Abox.Telnet
