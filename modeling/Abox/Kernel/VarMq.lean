import Abox.Basic
import Abox.Lib.Nor
import Abox.Lib.Runs

/-!
# Message queues with messages of different lengths

Model of `SendVarMq` and `RecvVarMq` (`applications/var_mq.c` lines 59–121). The
messages lie one behind the other in `msgPool`, `mqArray` has the address and the
length of each, and `mqSem` counts them.

`RecvVarMq` takes the semaphore before it looks at the size of the buffer, and it
moves the messages behind the first one to the front of the pool but not their
addresses.

* `represents_iff`: the state describes the messages that have been sent and not
  received, as long as every receive that finds a message finds only one, and has
  room for it.
* `recvVarMq_fifo`: the receives of such a run are those of a FIFO queue.
-/

namespace Abox.Kernel

open Nor Runs

/-- `VARSIZE`. -/
def varSize : ℕ := 3 * 1024

/-- `VARARRAYSIZE`. -/
def varArraySize : ℕ := 20

/-- `list_info`. -/
structure ListInfo where
  pDataAddr : ℕ
  msgLength : ℕ
  deriving DecidableEq

/-- `struct _var_messagequeue`; of `mqSem` the count. -/
structure VarMq where
  entrySize : ℕ
  msgPool : Mem
  entryNum : ℕ
  mqArray : ℕ → ListInfo
  mqSem : ℕ

/-- `VAR_EOK` and `VAR_ERROR`. -/
inductive VarErr
  | eok
  | error
  deriving DecidableEq

/-- `CreatVarMq` (lines 33–55), where `heap` is what `VarMalloc` returns. The last
    `VarMemset` reaches 20 bytes of `mqArray`, whose entries have 8. -/
def CreatVarMq (heap : VarMq) : VarMq where
  entrySize := 0
  msgPool k := if k < varSize then 0 else heap.msgPool k
  entryNum := 0
  mqArray i :=
    if i < 2 then ⟨0, 0⟩
    else if i = 2 then { heap.mqArray i with pDataAddr := 0 }
    else heap.mqArray i
  mqSem := 0

/-- `VarMemcpy` to the pool. -/
def copyIn (pool : Mem) (a : ℕ) (bs : List Byte) : Mem := fun k =>
  if a ≤ k ∧ k < a + bs.length then bs.getD (k - a) 0 else pool k

/-- `SendVarMq` (lines 59–79). `buffer` is `none` for a null pointer, and has `size`
    bytes otherwise. -/
def SendVarMq (mq : VarMq) (buffer : Option (List Byte)) : VarErr × VarMq :=
  match buffer with
  | none => (.error, mq)
  | some msg =>
    if msg.length = 0 then (.error, mq)
    else if msg.length + mq.entrySize > varSize then (.error, mq)
    else if mq.entryNum ≥ varArraySize then (.error, mq)
    else
      (.eok,
        { entrySize := mq.entrySize + msg.length
          msgPool := copyIn mq.msgPool mq.entrySize msg
          entryNum := mq.entryNum + 1
          mqArray := Function.update mq.mqArray mq.entryNum ⟨mq.entrySize, msg.length⟩
          mqSem := mq.mqSem + 1 })

/-- The first loop of `RecvVarMq`, with the `n` rounds that are left. -/
def moveData (pool : Mem) (i j : ℕ) : ℕ → Mem
  | 0 => pool
  | n + 1 => moveData (Function.update pool j (pool i)) (i + 1) (j + 1) n

/-- The second loop of `RecvVarMq`. -/
def moveEntries (mqArray : ℕ → ListInfo) (i : ℕ) : ℕ → ℕ → ListInfo
  | 0 => mqArray
  | n + 1 => moveEntries (Function.update mqArray i (mqArray (i + 1))) (i + 1) n

/-- `RecvVarMq` (lines 83–121), with what it copies to the buffer. `buffer` says
    whether there is one. A count of zero is a timeout: a receive that is woken up by
    a send comes behind that send in the order of the calls. -/
def RecvVarMq (mq : VarMq) (buffer : Bool) (size : ℕ) : VarErr × List Byte × VarMq :=
  if buffer = false ∨ size = 0 then (.error, [], mq)
  else if mq.mqSem = 0 then (.error, [], mq)
  else
    let mq := { mq with mqSem := mq.mqSem - 1 }
    if mq.entryNum = 0 then (.error, [], mq)
    else if size < (mq.mqArray 0).msgLength then (.error, [], mq)
    else
      let msg := read mq.msgPool (mq.mqArray 0).pDataAddr (mq.mqArray 0).msgLength
      let entrySize := mq.entrySize - (mq.mqArray 0).msgLength
      let msgPool := moveData mq.msgPool (mq.mqArray 0).msgLength 0
        (entrySize - (mq.mqArray 0).msgLength)
      let entryNum := mq.entryNum - 1
      (.eok, msg,
        { entrySize := entrySize
          msgPool := fun k => if entrySize ≤ k ∧ k < varSize then 0 else msgPool k
          entryNum := entryNum
          mqArray := Function.update (moveEntries mq.mqArray 0 entryNum) entryNum ⟨0, 0⟩
          mqSem := mq.mqSem })

/-! ## Runs -/

inductive Call
  | sendVarMq (buffer : Option (List Byte))
  | recvVarMq (buffer : Bool) (size : ℕ)

/-- A queue, and the messages that `SendVarMq` has accepted and that have not been
    received. -/
structure Run where
  mq : VarMq
  pending : List (List Byte)

/-- One call. -/
def Run.next (r : Run) : Call → Run
  | .sendVarMq buffer =>
    match SendVarMq r.mq buffer with
    | (.eok, mq) => ⟨mq, r.pending ++ buffer.toList⟩
    | (.error, mq) => ⟨mq, r.pending⟩
  | .recvVarMq buffer size =>
    match RecvVarMq r.mq buffer size with
    | (.eok, _, mq) => ⟨mq, r.pending.tail⟩
    | (.error, _, mq) => ⟨mq, r.pending⟩

/-- A queue made by `CreatVarMq`. -/
def Run.start (heap : VarMq) : Run := ⟨CreatVarMq heap, []⟩

def Step (r : Run) (call : Call) (r' : Run) : Prop := r' = r.next call

/-! ## Specification -/

/-- The state describes the messages `pending`: they lie one behind the other from
    the start of the pool on. -/
structure Represents (r : Run) : Prop where
  nonempty : ∀ msg ∈ r.pending, msg ≠ []
  mqSem : r.mq.mqSem = r.pending.length
  entryNum : r.mq.entryNum = r.pending.length
  entrySize : r.mq.entrySize = r.pending.flatten.length
  mqArray : ∀ i (h : i < r.pending.length), r.mq.mqArray i =
    ⟨(r.pending.take i).flatten.length, r.pending[i].length⟩
  msgPool : read r.mq.msgPool 0 r.pending.flatten.length = r.pending.flatten

/-- What a receive of a FIFO queue does: a successful one returns the first message,
    one that fails leaves the contents as they are and the count equal to
    `entryNum`. -/
def FifoCall (r : Run) : Call → Prop
  | .sendVarMq _ => True
  | .recvVarMq buffer size =>
    match RecvVarMq r.mq buffer size with
    | (.eok, msg, _) => r.pending.head? = some msg
    | (.error, _, mq) =>
      { mq with mqSem := r.mq.mqSem } = r.mq ∧ mq.mqSem = mq.entryNum

/-- A receive that finds a message finds only one, and has room for it. -/
def FindsOne (r : Run) : Call → Prop
  | .sendVarMq _ => True
  | .recvVarMq buffer size => buffer = true → size ≠ 0 → r.mq.entryNum ≠ 0 →
    r.mq.entryNum = 1 ∧ (r.mq.mqArray 0).msgLength ≤ size

/-! ## The loops -/

theorem moveEntries_apply (mqArray : ℕ → ListInfo) (i n k : ℕ) :
    moveEntries mqArray i n k = if i ≤ k ∧ k < i + n then mqArray (k + 1) else mqArray k := by
  induction n generalizing mqArray i with
  | zero => rw [if_neg (by omega), moveEntries]
  | succ n ih =>
    rw [moveEntries, ih]
    by_cases hk : k = i
    · subst hk
      rw [if_neg (by omega), if_pos (by omega), Function.update_self]
    · by_cases hin : i + 1 ≤ k ∧ k < i + 1 + n
      · rw [if_pos hin, if_pos (by omega), Function.update_of_ne (by omega)]
      · rw [if_neg hin, if_neg (by omega), Function.update_of_ne hk]

theorem read_copyIn (pool : Mem) (a : ℕ) (bs : List Byte) :
    read (copyIn pool a bs) a bs.length = bs := by
  rw [read_eq_iff]
  intro k hk
  unfold copyIn
  rw [if_pos (by omega), Nat.add_sub_cancel_left, List.getD_eq_getElem _ _ hk]

theorem read_copyIn_of_le {pool : Mem} {a n b : ℕ} {bs : List Byte} (h : a + n ≤ b) :
    read (copyIn pool b bs) a n = read pool a n := by
  apply read_congr
  intro k _ hk
  unfold copyIn
  rw [if_neg (by omega)]

/-! ## Sending -/

theorem represents_start (heap : VarMq) : Represents (Run.start heap) where
  nonempty _ h := absurd h List.not_mem_nil
  mqSem := rfl
  entryNum := rfl
  entrySize := rfl
  mqArray _ h := absurd h (Nat.not_lt_zero _)
  msgPool := rfl

/-- A message that is accepted is put behind the others. -/
theorem Represents.send {r : Run} (h : Represents r) {msg : List Byte} (hmsg : msg ≠ []) :
    Represents ⟨{ entrySize := r.mq.entrySize + msg.length
                  msgPool := copyIn r.mq.msgPool r.mq.entrySize msg
                  entryNum := r.mq.entryNum + 1
                  mqArray := Function.update r.mq.mqArray r.mq.entryNum
                    ⟨r.mq.entrySize, msg.length⟩
                  mqSem := r.mq.mqSem + 1 }, r.pending ++ [msg]⟩ := by
  have hflatten : (r.pending ++ [msg]).flatten = r.pending.flatten ++ msg := by
    rw [List.flatten_append, List.flatten_singleton]
  have hlen : (r.pending ++ [msg]).length = r.pending.length + 1 := List.length_append
  refine ⟨?_, ?_, ?_, ?_, ?_, ?_⟩
  · intro m hm
    rcases List.mem_append.1 hm with hm | hm
    · exact h.nonempty m hm
    · rw [List.mem_singleton.1 hm]
      exact hmsg
  · rw [hlen, ← h.mqSem]
  · rw [hlen, ← h.entryNum]
  · rw [hflatten, List.length_append, ← h.entrySize]
  · intro i hi
    show Function.update r.mq.mqArray r.mq.entryNum ⟨r.mq.entrySize, msg.length⟩ i = _
    rw [h.entryNum, h.entrySize]
    have hi' : i < r.pending.length + 1 := hlen ▸ hi
    by_cases hlast : i = r.pending.length
    · subst hlast
      rw [Function.update_self]
      congr 2
      · rw [List.take_left]
      · simp
    · have hlt : i < r.pending.length := by omega
      rw [Function.update_of_ne hlast, h.mqArray i hlt]
      congr 2
      · rw [List.take_append_of_le_length (by omega)]
      · rw [List.getElem_append_left hlt]
  · show read (copyIn r.mq.msgPool r.mq.entrySize msg) 0 _ = _
    rw [hflatten, List.length_append, read_append, h.entrySize, Nat.zero_add, read_copyIn,
      read_copyIn_of_le (by omega), h.msgPool]

theorem represents_sendVarMq {r : Run} (h : Represents r) (buffer : Option (List Byte)) :
    Represents (r.next (.sendVarMq buffer)) := by
  cases buffer with
  | none => exact h
  | some msg =>
    unfold Run.next SendVarMq
    by_cases h1 : msg.length = 0
    · simp only [if_pos h1]
      exact h
    · simp only [if_neg h1]
      by_cases h2 : msg.length + r.mq.entrySize > varSize
      · simp only [if_pos h2]
        exact h
      · simp only [if_neg h2]
        by_cases h3 : r.mq.entryNum ≥ varArraySize
        · simp only [if_pos h3]
          exact h
        · simp only [if_neg h3]
          exact h.send fun hnil => h1 (by rw [hnil]; rfl)

/-! ## Receiving -/

/-- Without a buffer, or without a message, a receive changes nothing. -/
theorem Represents.recv_none {r : Run} (h : Represents r) {buffer : Bool} {size : ℕ}
    (hnone : buffer = false ∨ size = 0 ∨ r.pending = []) :
    RecvVarMq r.mq buffer size = (.error, [], r.mq) := by
  unfold RecvVarMq
  by_cases harg : buffer = false ∨ size = 0
  · rw [if_pos harg]
  · rw [if_neg harg]
    have hnil : r.pending = [] := by tauto
    rw [if_pos]
    rw [h.mqSem, hnil]
    rfl

section

variable {r : Run} {msg : List Byte} {rest : List (List Byte)} {size : ℕ}

theorem Represents.first (h : Represents r) (hpending : r.pending = msg :: rest) :
    r.mq.mqSem = rest.length + 1 ∧ r.mq.entryNum = rest.length + 1 ∧
      r.mq.mqArray 0 = ⟨0, msg.length⟩ := by
  have hsem := h.mqSem
  have hnum := h.entryNum
  have harray := h.mqArray 0 (by rw [hpending]; exact Nat.succ_pos _)
  simp only [hpending] at hsem hnum harray
  exact ⟨hsem, hnum, harray⟩

/-- A receive with a buffer that is too small takes the semaphore all the same. -/
theorem Represents.recv_small (h : Represents r) (hpending : r.pending = msg :: rest)
    (hsize : size ≠ 0) (hsmall : size < msg.length) :
    RecvVarMq r.mq true size = (.error, [], { r.mq with mqSem := rest.length }) := by
  obtain ⟨hsem, hnum, harray⟩ := h.first hpending
  unfold RecvVarMq
  rw [if_neg (by simp [hsize]), if_neg (by omega)]
  simp only [hsem, hnum, harray, Nat.add_sub_cancel]
  rw [if_neg (Nat.succ_ne_zero _), if_pos hsmall]

/-- A receive with room for the first message returns it; the address of the next
    one stays what it was. -/
theorem Represents.recv_first (h : Represents r) (hpending : r.pending = msg :: rest)
    (hsize : size ≠ 0) (hroom : msg.length ≤ size) :
    ∃ mq, RecvVarMq r.mq true size = (.eok, msg, mq) ∧ mq.mqSem = rest.length ∧
      mq.entryNum = rest.length ∧ mq.entrySize = rest.flatten.length ∧
      (rest ≠ [] → (mq.mqArray 0).pDataAddr = msg.length) := by
  obtain ⟨hsem, hnum, harray⟩ := h.first hpending
  have hentry := h.entrySize
  have hpool := h.msgPool
  rw [hpending, List.flatten_cons, List.length_append] at hentry hpool
  have hread : read r.mq.msgPool 0 msg.length = msg := by
    rw [read_append] at hpool
    exact (List.append_inj hpool (length_read ..)).1
  unfold RecvVarMq
  rw [if_neg (by simp [hsize]), if_neg (by omega)]
  simp only [hsem, hnum, harray, Nat.add_sub_cancel]
  rw [if_neg (Nat.succ_ne_zero _), if_neg (Nat.not_lt.2 hroom), hread]
  refine ⟨_, rfl, rfl, rfl, ?_, fun hrest => ?_⟩
  · show r.mq.entrySize - msg.length = _
    omega
  · obtain ⟨next, rest', rfl⟩ := List.exists_cons_of_ne_nil hrest
    have hnext := h.mqArray 1 (by rw [hpending]; simp)
    show (Function.update (moveEntries r.mq.mqArray 0 (rest'.length + 1)) (rest'.length + 1)
      ⟨0, 0⟩ 0).pDataAddr = _
    rw [Function.update_of_ne (Nat.succ_ne_zero _).symm, moveEntries_apply, if_pos (by omega),
      hnext]
    show (r.pending.take 1).flatten.length = msg.length
    rw [hpending]
    simp

theorem Represents.findsOne_iff (h : Represents r) (hpending : r.pending = msg :: rest)
    (hsize : size ≠ 0) :
    FindsOne r (.recvVarMq true size) ↔ rest = [] ∧ msg.length ≤ size := by
  obtain ⟨-, hnum, harray⟩ := h.first hpending
  show (true = true → size ≠ 0 → r.mq.entryNum ≠ 0 →
    r.mq.entryNum = 1 ∧ (r.mq.mqArray 0).msgLength ≤ size) ↔ _
  rw [hnum, harray, ← List.length_eq_zero_iff]
  simp [hsize]

/-- With another message behind it, the first one cannot be received without damage. -/
theorem Represents.next_first_iff (h : Represents r) (hpending : r.pending = msg :: rest)
    (hsize : size ≠ 0) (hroom : msg.length ≤ size) :
    Represents (r.next (.recvVarMq true size)) ↔ rest = [] := by
  obtain ⟨mq, hrecv, hsem, hnum, hentry, haddr⟩ := h.recv_first hpending hsize hroom
  have hnext : r.next (.recvVarMq true size) = ⟨mq, rest⟩ := by
    simp only [Run.next, hrecv, hpending, List.tail_cons]
  rw [hnext]
  constructor
  · intro h'
    by_contra hrest
    -- the address of the next message is that of a pool with the first one in it
    have hzero := h'.mqArray 0 (List.length_pos_iff.2 hrest)
    have hfirst := haddr hrest
    rw [hzero] at hfirst
    exact h.nonempty msg (by rw [hpending]; exact List.mem_cons_self)
      (List.length_eq_zero_iff.1 hfirst.symm)
  · rintro rfl
    exact ⟨fun m hm => absurd hm List.not_mem_nil, hsem, hnum, hentry,
      fun i hi => absurd hi (Nat.not_lt_zero i), rfl⟩

/-- A receive with too little room loses a count of the semaphore. -/
theorem Represents.not_next_small (h : Represents r) (hpending : r.pending = msg :: rest)
    (hsize : size ≠ 0) (hsmall : size < msg.length) :
    ¬ Represents (r.next (.recvVarMq true size)) := by
  have hrecv := h.recv_small hpending hsize hsmall
  have hnext : r.next (.recvVarMq true size) =
      ⟨{ r.mq with mqSem := rest.length }, r.pending⟩ := by
    simp only [Run.next, hrecv]
  rw [hnext]
  intro h'
  have hlen : rest.length = r.pending.length := h'.mqSem
  rw [hpending, List.length_cons] at hlen
  omega

end

/-! ## Runs -/

/-- A receive that looks for nothing or finds nothing, or finds a first message. -/
theorem Run.recv_cases (r : Run) (buffer : Bool) (size : ℕ) :
    (buffer = false ∨ size = 0 ∨ r.pending = []) ∨
      ∃ msg rest, buffer = true ∧ size ≠ 0 ∧ r.pending = msg :: rest := by
  by_cases hnone : buffer = false ∨ size = 0 ∨ r.pending = []
  · exact Or.inl hnone
  · push Not at hnone
    obtain ⟨hbuffer, hsize, hne⟩ := hnone
    obtain ⟨msg, rest, hpending⟩ := List.exists_cons_of_ne_nil hne
    exact Or.inr ⟨msg, rest, by simpa using hbuffer, hsize, hpending⟩

/-- A step keeps the description if and only if it meets the condition. -/
theorem represents_next_iff {r : Run} (h : Represents r) (call : Call) :
    Represents (r.next call) ↔ FindsOne r call := by
  cases call with
  | sendVarMq buffer => exact iff_of_true (represents_sendVarMq h buffer) trivial
  | recvVarMq buffer size =>
    rcases r.recv_cases buffer size with hnone | ⟨msg, rest, rfl, hsize, hpending⟩
    · have hnext : r.next (.recvVarMq buffer size) = r := by
        simp only [Run.next, h.recv_none hnone]
      rw [hnext]
      apply iff_of_true h
      intro hbuffer hsize hnum
      rw [h.entryNum] at hnum
      rcases hnone with hb | hs | hp
      · rw [hbuffer] at hb
        cases hb
      · exact absurd hs hsize
      · rw [hp] at hnum
        exact absurd rfl hnum
    · rw [h.findsOne_iff hpending hsize]
      by_cases hroom : msg.length ≤ size
      · rw [h.next_first_iff hpending hsize hroom]
        exact ⟨fun hrest => ⟨hrest, hroom⟩, And.left⟩
      · apply iff_of_false
        · exact h.not_next_small hpending hsize (Nat.lt_of_not_le hroom)
        · exact fun hboth => hroom hboth.2

/-- A receive that meets the condition is that of a FIFO queue. -/
theorem fifoCall_of_represents {r : Run} (h : Represents r) {call : Call}
    (hok : FindsOne r call) : FifoCall r call := by
  cases call with
  | sendVarMq buffer => trivial
  | recvVarMq buffer size =>
    rcases r.recv_cases buffer size with hnone | ⟨msg, rest, rfl, hsize, hpending⟩
    · simp only [FifoCall, h.recv_none hnone]
      exact ⟨trivial, h.mqSem.trans h.entryNum.symm⟩
    · obtain ⟨-, hroom⟩ := (h.findsOne_iff hpending hsize).1 hok
      obtain ⟨mq, hrecv, -⟩ := h.recv_first hpending hsize hroom
      simp only [FifoCall, hrecv, hpending, List.head?_cons]

theorem represents_iff {heap : VarMq} {tr : List (Call × Run)}
    (hp : Path Step (Run.start heap) tr) :
    Always Represents (Run.start heap) tr ↔ AllSteps FindsOne (Run.start heap) tr :=
  hp.always_iff (fun _ => True) Represents (fun _ _ => trivial)
    (fun _ h hstep => by rw [hstep]; exact represents_next_iff h _) trivial
    (represents_start heap)

/-- Any sequence of calls on a queue made by `CreatVarMq`: the state describes the
    messages that are pending throughout if and only if every receive that finds a
    message finds only one and has room for it, and then every receive is that of a
    FIFO queue. -/
theorem recvVarMq_fifo {heap : VarMq} {tr : List (Call × Run)}
    (hp : Path Step (Run.start heap) tr) :
    (Always Represents (Run.start heap) tr ↔ AllSteps FindsOne (Run.start heap) tr) ∧
      (AllSteps FindsOne (Run.start heap) tr → AllSteps FifoCall (Run.start heap) tr) := by
  refine ⟨represents_iff hp, fun hok => ?_⟩
  have halways := (represents_iff hp).2 hok
  exact AllSteps.of_always (fun h hstep => fifoCall_of_represents h hstep) halways hok

/-- The run of the calls. -/
def trace (r : Run) : List Call → List (Call × Run)
  | [] => []
  | call :: calls => (call, r.next call) :: trace (r.next call) calls

theorem path_trace (r : Run) (calls : List Call) : Path Step r (trace r calls) := by
  induction calls generalizing r with
  | nil => exact .nil r
  | cons call calls ih => exact .cons rfl (ih (r.next call))

/-- Zeros in place of what `VarMalloc` returns. -/
def blank : VarMq := ⟨0, fun _ => 0, 0, fun _ => ⟨0, 0⟩, 0⟩

/-- Two messages that are received one by one. -/
theorem recvVarMq_fifo_two : AllSteps FifoCall (Run.start blank)
    (trace (Run.start blank) [.sendVarMq (some [1, 2, 3]), .recvVarMq true 3,
      .sendVarMq (some [4]), .recvVarMq true 8]) := by
  apply (recvVarMq_fifo (path_trace _ _)).2
  exact ⟨trivial, fun _ _ _ => ⟨rfl, by decide⟩, trivial, fun _ _ _ => ⟨rfl, by decide⟩, trivial⟩

/-- With two messages in the queue, the second receive returns a zero in place of the
    second message. -/
theorem second_message_lost : ¬ AllSteps FifoCall (Run.start blank)
    (trace (Run.start blank) [.sendVarMq (some [1]), .sendVarMq (some [2]),
      .recvVarMq true 4, .recvVarMq true 4]) := by
  rintro ⟨-, -, -, h, -⟩
  have hlost : some [(2 : Byte)] = some [0] := h
  exact absurd hlost (by decide)

end Abox.Kernel
