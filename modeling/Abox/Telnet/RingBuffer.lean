import Abox.Basic
import Abox.Lib.Mirror
import Abox.Lib.Runs

/-!
# Ring buffers

Model of `rt_ringbuffer` (`include/drivers/src/ringbuffer.c` lines 43–338, `include/rtdevice.h`
lines 56–79 and 198–244), through which the telnet server passes what it receives and what it
sends. An index and its mirror bit share 16 bits.

* `ringbuffer_fifo`: over every sequence of calls, no call leaves the buffer, and the ring
  buffer is a queue of bounded length exactly as long as no call of `rt_ringbuffer_put_force`
  discards data of a queue that does not go around the end, by going around it. Such a call
  empties the buffer.
-/

namespace Abox.Telnet

open Mirror Runs

/-! ## Model -/

/-- `struct rt_ringbuffer`. The size is a positive `rt_int16_t`. -/
structure RtRingbuffer where
  bufferPtr : List Byte
  readMirror : BitVec 1
  readIndex : BitVec 15
  writeMirror : BitVec 1
  writeIndex : BitVec 15
  bufferSize : ℕ

/-- `enum rt_ringbuffer_state`. -/
inductive RtRingbufferState
  | empty
  | full
  | halffull
  deriving DecidableEq

/-- `RT_ALIGN_SIZE` (`rtconfig.h` line 11). -/
def rtAlignSize : ℕ := 4

/-- `memcpy` of the bytes `bs` into a buffer; `none` if that leaves the buffer. -/
def memcpy (buf : List Byte) (off : ℕ) (bs : List Byte) : Option (List Byte) :=
  if off + bs.length ≤ buf.length then some (store buf off bs) else none

/-- `memcpy` of `len` bytes out of a buffer; `none` if that leaves the buffer. -/
def memcpyFrom (buf : List Byte) (off len : ℕ) : Option (List Byte) :=
  if off + len ≤ buf.length then some (load buf off len) else none

namespace RtRingbuffer

/-- `rt_ringbuffer_init`. -/
def init (pool : List Byte) (size : ℕ) : RtRingbuffer :=
  { bufferPtr := pool
    readMirror := 0
    readIndex := 0
    writeMirror := 0
    writeIndex := 0
    bufferSize := size / rtAlignSize * rtAlignSize }

/-- `rt_ringbuffer_reset`. -/
def reset (rb : RtRingbuffer) : RtRingbuffer :=
  { rb with readMirror := 0, readIndex := 0, writeMirror := 0, writeIndex := 0 }

/-- `rt_ringbuffer_status`. -/
def status (rb : RtRingbuffer) : RtRingbufferState :=
  if rb.readIndex = rb.writeIndex then
    if rb.readMirror = rb.writeMirror then .empty else .full
  else .halffull

/-- `rt_ringbuffer_data_len`. -/
def dataLen (rb : RtRingbuffer) : ℕ :=
  match rb.status with
  | .empty => 0
  | .full => rb.bufferSize
  | .halffull =>
    if rb.writeIndex.toNat > rb.readIndex.toNat then rb.writeIndex.toNat - rb.readIndex.toNat
    else rb.bufferSize - (rb.readIndex.toNat - rb.writeIndex.toNat)

/-- `rt_ringbuffer_space_len`. -/
def spaceLen (rb : RtRingbuffer) : ℕ := rb.bufferSize - rb.dataLen

/-- The bytes `ptr` are copied and do not reach the end (lines 85–88 and 131–134). -/
def copyNear (rb : RtRingbuffer) (ptr : List Byte) : Option RtRingbuffer := do
  let buf ← memcpy rb.bufferPtr rb.writeIndex.toNat ptr
  some { rb with bufferPtr := buf, writeIndex := rb.writeIndex + BitVec.ofNat 15 ptr.length }

/-- The bytes `ptr` are copied in two parts (lines 92–101 and 142–151). -/
def copyAround (rb : RtRingbuffer) (ptr : List Byte) : Option RtRingbuffer := do
  let first := rb.bufferSize - rb.writeIndex.toNat
  let buf ← memcpy rb.bufferPtr rb.writeIndex.toNat (ptr.take first)
  let buf ← memcpy buf 0 (ptr.drop first)
  some { rb with
    bufferPtr := buf
    writeMirror := ~~~rb.writeMirror
    writeIndex := BitVec.ofNat 15 (ptr.length - first) }

/-- `rt_ringbuffer_put`: the number of bytes put in. -/
def put (rb : RtRingbuffer) (ptr : List Byte) : Option (ℕ × RtRingbuffer) :=
  let size := rb.spaceLen
  if size = 0 then some (0, rb)
  else
    let ptr := if size < ptr.length then ptr.take size else ptr
    if rb.bufferSize - rb.writeIndex.toNat > ptr.length then
      (rb.copyNear ptr).map fun rb => (ptr.length, rb)
    else (rb.copyAround ptr).map fun rb => (ptr.length, rb)

/-- `rt_ringbuffer_put_force`. -/
def putForce (rb : RtRingbuffer) (ptr : List Byte) : Option (ℕ × RtRingbuffer) :=
  let spaceLength := rb.spaceLen
  let ptr := if ptr.length > rb.bufferSize then ptr.drop (ptr.length - rb.bufferSize) else ptr
  if rb.bufferSize - rb.writeIndex.toNat > ptr.length then
    (rb.copyNear ptr).map fun rb =>
      (ptr.length,
        if ptr.length > spaceLength then { rb with readIndex := rb.writeIndex } else rb)
  else
    (rb.copyAround ptr).map fun rb =>
      (ptr.length,
        if ptr.length > spaceLength then
          { rb with readMirror := ~~~rb.readMirror, readIndex := rb.writeIndex }
        else rb)

/-- `rt_ringbuffer_get`: the bytes that are read. -/
def get (rb : RtRingbuffer) (length : ℕ) : Option (List Byte × RtRingbuffer) :=
  let size := rb.dataLen
  if size = 0 then some ([], rb)
  else
    let length := if size < length then size else length
    let first := rb.bufferSize - rb.readIndex.toNat
    if first > length then do
      let ptr ← memcpyFrom rb.bufferPtr rb.readIndex.toNat length
      some (ptr, { rb with readIndex := rb.readIndex + BitVec.ofNat 15 length })
    else do
      let ptr ← memcpyFrom rb.bufferPtr rb.readIndex.toNat first
      let ptr' ← memcpyFrom rb.bufferPtr 0 (length - first)
      some (ptr ++ ptr', { rb with
        readMirror := ~~~rb.readMirror
        readIndex := BitVec.ofNat 15 (length - first) })

/-- `write_index` behind a character. -/
def advanceWrite (rb : RtRingbuffer) : RtRingbuffer :=
  if rb.writeIndex.toNat = rb.bufferSize - 1 then
    { rb with writeMirror := ~~~rb.writeMirror, writeIndex := 0 }
  else { rb with writeIndex := rb.writeIndex + 1 }

/-- `rt_ringbuffer_putchar`. -/
def putchar (rb : RtRingbuffer) (ch : Byte) : Option (ℕ × RtRingbuffer) :=
  if rb.spaceLen = 0 then some (0, rb)
  else do
    let buf ← memcpy rb.bufferPtr rb.writeIndex.toNat [ch]
    some (1, { rb with bufferPtr := buf }.advanceWrite)

/-- `rt_ringbuffer_putchar_force`. -/
def putcharForce (rb : RtRingbuffer) (ch : Byte) : Option (ℕ × RtRingbuffer) := do
  let oldState := rb.status
  let buf ← memcpy rb.bufferPtr rb.writeIndex.toNat [ch]
  let rb' := { rb with bufferPtr := buf }.advanceWrite
  some (1,
    if oldState = .full then
      if rb.writeIndex.toNat = rb.bufferSize - 1 then
        { rb' with readMirror := ~~~rb'.readMirror, readIndex := rb'.writeIndex }
      else { rb' with readIndex := rb'.writeIndex }
    else rb')

/-- `rt_ringbuffer_getchar`: the character, if there is one. -/
def getchar (rb : RtRingbuffer) : Option (List Byte × RtRingbuffer) :=
  if rb.dataLen = 0 then some ([], rb)
  else do
    let ch ← memcpyFrom rb.bufferPtr rb.readIndex.toNat 1
    some (ch,
      if rb.readIndex.toNat = rb.bufferSize - 1 then
        { rb with readMirror := ~~~rb.readMirror, readIndex := 0 }
      else { rb with readIndex := rb.readIndex + 1 })

/-! ## Queues -/

/-- A ring buffer holds the queue `q`. -/
structure Represents (rb : RtRingbuffer) (q : List Byte) : Prop where
  size : rb.bufferSize < 2 ^ 15
  holds : Holds rb.bufferSize rb.bufferPtr rb.readIndex.toNat q
  spans : Spans rb.bufferSize rb.readIndex.toNat rb.writeIndex.toNat
    (rb.readMirror == rb.writeMirror) q.length

variable {rb rb' : RtRingbuffer} {q ptr : List Byte}

theorem not_beq_left : ∀ a b : BitVec 1, (~~~a == b) = !(a == b) := by decide

theorem not_beq_right : ∀ a b : BitVec 1, (a == ~~~b) = !(a == b) := by decide

/-- Sums of indices that stay in the buffer. -/
theorem toNat_add_ofNat {a : BitVec 15} {k n : ℕ} (hn : n < 2 ^ 15) (h : a.toNat + k < n) :
    (a + BitVec.ofNat 15 k).toNat = a.toNat + k := by
  rw [BitVec.toNat_add, BitVec.toNat_ofNat]
  omega

theorem dataLen_eq_count (rb : RtRingbuffer) :
    rb.dataLen = count rb.bufferSize rb.readIndex.toNat rb.writeIndex.toNat
      (rb.readMirror == rb.writeMirror) := by
  unfold dataLen status count
  by_cases hindex : rb.readIndex = rb.writeIndex
  · by_cases hside : rb.readMirror = rb.writeMirror
    · simp [hindex, hside]
    · simp [hindex, hside]
  · have hnat : rb.readIndex.toNat ≠ rb.writeIndex.toNat :=
      fun h => hindex (BitVec.eq_of_toNat_eq h)
    simp [hindex, hnat]

namespace Represents

theorem index_lt (h : Represents rb q) : rb.readIndex.toNat < rb.bufferSize := h.holds.index

theorem write_eq (h : Represents rb q) :
    rb.writeIndex.toNat = slot rb.bufferSize rb.readIndex.toNat q.length := h.spans.index

theorem write_lt (h : Represents rb q) : rb.writeIndex.toNat < rb.bufferSize := by
  rw [h.write_eq]
  exact slot_lt h.index_lt h.holds.fits

theorem dataLen_eq (h : Represents rb q) : rb.dataLen = q.length := by
  rw [dataLen_eq_count]
  exact count_eq h.index_lt h.holds.fits h.spans

theorem spaceLen_eq (h : Represents rb q) : rb.spaceLen = rb.bufferSize - q.length := by
  rw [spaceLen, h.dataLen_eq]

/-- A full buffer is one on both sides of the mirror. -/
theorem status_full_iff (h : Represents rb q) : rb.status = .full ↔ q.length = rb.bufferSize := by
  have hlen := h.dataLen_eq
  have hr := h.index_lt
  have hw := h.write_lt
  unfold dataLen at hlen
  cases hs : rb.status with
  | empty =>
    rw [hs] at hlen
    simp at hlen ⊢
    simp [← hlen]
    omega
  | full =>
    rw [hs] at hlen
    simp at hlen ⊢
    exact hlen.symm
  | halffull =>
    have hindex : rb.readIndex ≠ rb.writeIndex := by
      intro heq
      unfold status at hs
      rw [if_pos heq] at hs
      split_ifs at hs
    have hnat : rb.readIndex.toNat ≠ rb.writeIndex.toNat :=
      fun h => hindex (BitVec.eq_of_toNat_eq h)
    rw [hs] at hlen
    simp at hlen ⊢
    split_ifs at hlen <;> omega

end Represents

/-! ## Putting in -/

/-- The bytes `ptr` are copied to the write index, which is moved behind them. -/
structure Copied (rb : RtRingbuffer) (ptr : List Byte) (rb' : RtRingbuffer) : Prop where
  bufferPtr : rb'.bufferPtr = write rb.bufferSize rb.bufferPtr rb.writeIndex.toNat ptr
  writeIndex : rb'.writeIndex.toNat = slot rb.bufferSize rb.writeIndex.toNat ptr.length
  writeMirror : rb'.writeMirror =
    if rb.bufferSize - rb.writeIndex.toNat > ptr.length then rb.writeMirror else ~~~rb.writeMirror
  readIndex : rb'.readIndex = rb.readIndex
  readMirror : rb'.readMirror = rb.readMirror
  bufferSize : rb'.bufferSize = rb.bufferSize

theorem Represents.copyNear (h : Represents rb q)
    (hend : rb.bufferSize - rb.writeIndex.toNat > ptr.length) :
    ∃ rb', rb.copyNear ptr = some rb' ∧ Copied rb ptr rb' := by
  have hw := h.write_lt
  have hroom := h.holds.room
  have hcopy : rb.copyNear ptr = some { rb with
      bufferPtr := store rb.bufferPtr rb.writeIndex.toNat ptr
      writeIndex := rb.writeIndex + BitVec.ofNat 15 ptr.length } := by
    rw [RtRingbuffer.copyNear, memcpy, if_pos (by omega)]
    rfl
  refine ⟨_, hcopy, by rw [write, if_pos hend], ?_, by rw [if_pos hend], rfl, rfl, rfl⟩
  show (rb.writeIndex + BitVec.ofNat 15 ptr.length).toNat = _
  rw [toNat_add_ofNat h.size (by omega)]
  simp [slot]
  omega

theorem Represents.copyAround (h : Represents rb q) (hlen : ptr.length ≤ rb.bufferSize)
    (hend : ¬ rb.bufferSize - rb.writeIndex.toNat > ptr.length) :
    ∃ rb', rb.copyAround ptr = some rb' ∧ Copied rb ptr rb' := by
  have hw := h.write_lt
  have hroom := h.holds.room
  have hsize := h.size
  have hstore : (store rb.bufferPtr rb.writeIndex.toNat
      (ptr.take (rb.bufferSize - rb.writeIndex.toNat))).length = rb.bufferPtr.length :=
    length_store (by simp; omega)
  have hcopy : rb.copyAround ptr = some { rb with
      bufferPtr := store (store rb.bufferPtr rb.writeIndex.toNat
        (ptr.take (rb.bufferSize - rb.writeIndex.toNat))) 0
        (ptr.drop (rb.bufferSize - rb.writeIndex.toNat))
      writeMirror := ~~~rb.writeMirror
      writeIndex := BitVec.ofNat 15 (ptr.length - (rb.bufferSize - rb.writeIndex.toNat)) } := by
    unfold RtRingbuffer.copyAround memcpy
    dsimp only
    rw [if_pos (by simp; omega), Option.bind_eq_bind, Option.bind_some, if_pos (by simp; omega)]
    rfl
  refine ⟨_, hcopy, by rw [write, if_neg hend], ?_, by rw [if_neg hend], rfl, rfl, rfl⟩
  show (BitVec.ofNat 15 (ptr.length - (rb.bufferSize - rb.writeIndex.toNat))).toNat = _
  rw [BitVec.toNat_ofNat]
  unfold slot
  split_ifs <;> omega

/-- A character is a block of one byte. -/
theorem Represents.copyChar (h : Represents rb q) (ch : Byte) :
    ∃ buf, memcpy rb.bufferPtr rb.writeIndex.toNat [ch] = some buf ∧
      Copied rb [ch] { rb with bufferPtr := buf }.advanceWrite := by
  have hw := h.write_lt
  have hroom := h.holds.room
  refine ⟨_, by rw [memcpy, if_pos (by simp; omega)], ?_⟩
  have hstore : store rb.bufferPtr rb.writeIndex.toNat [ch] =
      write rb.bufferSize rb.bufferPtr rb.writeIndex.toNat [ch] := by
    unfold write
    split_ifs with hend
    · rfl
    · have hone : rb.bufferSize - rb.writeIndex.toNat = 1 := by
        simp at hend
        omega
      rw [hone]
      simp [store]
  unfold advanceWrite
  by_cases hlast : rb.writeIndex.toNat = rb.bufferSize - 1
  · have hend : ¬ rb.bufferSize - rb.writeIndex.toNat > [ch].length := by simp; omega
    rw [if_pos hlast]
    refine ⟨hstore, ?_, by rw [if_neg hend], rfl, rfl, rfl⟩
    show 0 = slot rb.bufferSize rb.writeIndex.toNat 1
    unfold slot
    split_ifs <;> omega
  · have hend : rb.bufferSize - rb.writeIndex.toNat > [ch].length := by simp; omega
    rw [if_neg hlast]
    refine ⟨hstore, ?_, by rw [if_pos hend], rfl, rfl, rfl⟩
    show (rb.writeIndex + BitVec.ofNat 15 1).toNat = _
    rw [toNat_add_ofNat h.size (by omega)]
    simp [slot]
    omega

/-- What fits is put behind the queue. -/
theorem Copied.represents (hc : Copied rb ptr rb') (h : Represents rb q)
    (hfits : q.length + ptr.length ≤ rb.bufferSize) : Represents rb' (q ++ ptr) := by
  have hspans := h.spans.append h.index_lt hfits
  have hholds := h.holds.write ptr hfits
  rw [← h.write_eq, ← hc.bufferPtr] at hholds
  rw [← hc.writeIndex] at hspans
  have hside : (rb'.readMirror == rb'.writeMirror) =
      if rb.bufferSize - rb.writeIndex.toNat > ptr.length then rb.readMirror == rb.writeMirror
      else !(rb.readMirror == rb.writeMirror) := by
    rw [hc.writeMirror, hc.readMirror]
    split_ifs
    · rfl
    · exact not_beq_right _ _
  rw [← hside, ← List.length_append] at hspans
  refine ⟨by rw [hc.bufferSize]; exact h.size, ?_, ?_⟩
  · rw [hc.bufferSize, hc.readIndex]
    exact hholds
  · rw [hc.bufferSize, hc.readIndex]
    exact hspans

/-- The read index is moved behind what has been put in, to the side `m`. -/
theorem Copied.discards {m : BitVec 1} (hc : Copied rb ptr rb') (h : Represents rb q)
    (hlen : ptr.length ≤ rb.bufferSize) (hover : rb.bufferSize ≤ q.length + ptr.length) :
    if m = rb'.writeMirror then
      Represents { rb' with readMirror := m, readIndex := rb'.writeIndex } []
    else Represents { rb' with readMirror := m, readIndex := rb'.writeIndex }
      ((q ++ ptr).drop (q.length + ptr.length - rb.bufferSize)) := by
  have hholds := h.holds.overwrite hlen hover
  rw [← h.write_eq, ← hc.bufferPtr, ← hc.writeIndex] at hholds
  have hsize : rb'.bufferSize < 2 ^ 15 := by
    rw [hc.bufferSize]
    exact h.size
  split_ifs with hside
  · refine ⟨hsize, ?_, ?_⟩
    · show Holds rb'.bufferSize rb'.bufferPtr rb'.writeIndex.toNat []
      rw [hc.bufferSize]
      exact holds_nil hholds.room hholds.index
    · show Spans rb'.bufferSize rb'.writeIndex.toNat rb'.writeIndex.toNat (m == rb'.writeMirror) 0
      rw [hc.bufferSize, beq_iff_eq.2 hside]
      exact spans_empty hholds.index
  · refine ⟨hsize, ?_, ?_⟩
    · show Holds rb'.bufferSize rb'.bufferPtr rb'.writeIndex.toNat _
      rw [hc.bufferSize]
      exact hholds
    · show Spans rb'.bufferSize rb'.writeIndex.toNat rb'.writeIndex.toNat (m == rb'.writeMirror) _
      have hfull : ((q ++ ptr).drop (q.length + ptr.length - rb.bufferSize)).length =
          rb.bufferSize := by
        simp
        omega
      rw [hc.bufferSize, beq_eq_false_iff_ne.2 hside, hfull]
      exact spans_full _ _

/-- Nothing is put behind the queue. -/
theorem Represents.put (h : Represents rb q) (ptr : List Byte) :
    ∃ rb', rb.put ptr = some (min ptr.length (rb.bufferSize - q.length), rb') ∧
      Represents rb' (q ++ ptr.take (rb.bufferSize - q.length)) := by
  have hspace := h.spaceLen_eq
  have hfits := h.holds.fits
  unfold RtRingbuffer.put
  dsimp only
  by_cases hfull : rb.spaceLen = 0
  · rw [if_pos hfull, ← hspace, hfull]
    refine ⟨rb, by simp, ?_⟩
    rw [List.take_zero, List.append_nil]
    exact h
  rw [if_neg hfull]
  have hptr : (if rb.spaceLen < ptr.length then ptr.take rb.spaceLen else ptr) =
      ptr.take (rb.bufferSize - q.length) := by
    rw [hspace]
    split_ifs with hlen
    · rfl
    · exact (List.take_of_length_le (by omega)).symm
  rw [hptr]
  have hlen : (ptr.take (rb.bufferSize - q.length)).length =
      min ptr.length (rb.bufferSize - q.length) := by
    rw [List.length_take, min_comm]
  split_ifs with hend
  · obtain ⟨rb', hcopy, hc⟩ := h.copyNear hend
    exact ⟨rb', by rw [hcopy, hlen]; rfl, hc.represents h (by omega)⟩
  · obtain ⟨rb', hcopy, hc⟩ := h.copyAround (by omega) hend
    exact ⟨rb', by rw [hcopy, hlen]; rfl, hc.represents h (by omega)⟩

/-- A block goes around the end and over the front of a queue that does not. -/
def Loses (rb : RtRingbuffer) (ptr : List Byte) : Prop :=
  rb.spaceLen < min ptr.length rb.bufferSize ∧
    rb.bufferSize - rb.writeIndex.toNat ≤ min ptr.length rb.bufferSize ∧
    rb.readMirror = rb.writeMirror

instance (rb : RtRingbuffer) (ptr : List Byte) : Decidable (rb.Loses ptr) :=
  inferInstanceAs (Decidable (_ ∧ _ ∧ _))

theorem drop_append_eq_rtake (q ptr : List Byte) (n : ℕ) :
    (q ++ ptr).drop (q.length + ptr.length - n) = (q ++ ptr).rtake n := by
  rw [List.rtake, List.length_append]

/-- The end of a block that is longer than the buffer. -/
theorem rtake_append_drop {n : ℕ} (h : n < ptr.length) :
    (q ++ ptr.drop (ptr.length - n)).rtake n = (q ++ ptr).rtake n := by
  rw [List.rtake, List.rtake, List.drop_append, List.drop_append]
  congr 1
  · rw [List.drop_eq_nil_of_le (by simp; omega), List.drop_eq_nil_of_le (by simp; omega)]
  · rw [List.drop_drop]
    congr 1
    simp
    omega

/-- The last bytes of the queue and the block stay, unless the block is one that empties the
    buffer. -/
theorem Represents.putForce (h : Represents rb q) (ptr : List Byte) :
    ∃ rb', rb.putForce ptr = some (min ptr.length rb.bufferSize, rb') ∧
      Represents rb' (if rb.Loses ptr then [] else (q ++ ptr).rtake rb.bufferSize) := by
  have hspace := h.spaceLen_eq
  have hfits := h.holds.fits
  have hw := h.write_lt
  unfold RtRingbuffer.putForce
  dsimp only
  obtain ⟨ptr', hptr', hlen, hlast⟩ : ∃ ptr', (if ptr.length > rb.bufferSize then
      ptr.drop (ptr.length - rb.bufferSize) else ptr) = ptr' ∧
      ptr'.length = min ptr.length rb.bufferSize ∧
      (q ++ ptr').rtake rb.bufferSize = (q ++ ptr).rtake rb.bufferSize := by
    refine ⟨_, rfl, ?_, ?_⟩
    · split_ifs <;> simp <;> omega
    · split_ifs with hlong
      · exact rtake_append_drop hlong
      · rfl
  have hfit : ptr'.length ≤ rb.bufferSize := by omega
  have hloses : rb.Loses ptr ↔ rb.spaceLen < ptr'.length ∧
      rb.bufferSize - rb.writeIndex.toNat ≤ ptr'.length ∧ rb.readMirror = rb.writeMirror := by
    rw [hlen]
    exact Iff.rfl
  rw [hptr', ← hlast, ← hlen]
  by_cases hend : rb.bufferSize - rb.writeIndex.toNat > ptr'.length
  · obtain ⟨rb', hcopy, hc⟩ := h.copyNear hend
    rw [if_pos hend, hcopy, if_neg (fun hl => by have := hloses.1 hl; omega)]
    refine ⟨_, rfl, ?_⟩
    have hmirror := hc.writeMirror
    rw [if_pos hend] at hmirror
    split_ifs with hover
    · have hd := hc.discards (m := rb'.readMirror) h hfit (by omega)
      have hside : rb.readMirror ≠ rb.writeMirror := by
        -- a queue that does not go around the end leaves all of the space in front of the end
        intro heq
        have hspan := h.spans.side.1 (beq_iff_eq.2 heq)
        have hwrite := h.write_eq
        unfold slot at hwrite
        rw [if_pos hspan] at hwrite
        omega
      rw [if_neg (by rw [hc.readMirror, hmirror]; exact hside),
        drop_append_eq_rtake] at hd
      exact hd
    · rw [List.rtake, List.length_append, Nat.sub_eq_zero_of_le (by omega), List.drop_zero]
      exact hc.represents h (by omega)
  · obtain ⟨rb', hcopy, hc⟩ := h.copyAround hfit hend
    rw [if_neg hend, hcopy]
    refine ⟨_, rfl, ?_⟩
    have hmirror := hc.writeMirror
    rw [if_neg hend] at hmirror
    by_cases hover : ptr'.length > rb.spaceLen
    · have hd := hc.discards (m := ~~~rb'.readMirror) h hfit (by omega)
      have hside : ~~~rb'.readMirror = rb'.writeMirror ↔ rb.Loses ptr := by
        rw [hc.readMirror, hmirror, BitVec.not_inj, hloses]
        exact ⟨fun he => ⟨hover, by omega, he⟩, fun he => he.2.2⟩
      rw [if_pos hover, ← drop_append_eq_rtake]
      simp only [hside] at hd
      by_cases hl : rb.Loses ptr
      · rw [if_pos hl] at hd ⊢
        exact hd
      · rw [if_neg hl] at hd ⊢
        exact hd
    · rw [if_neg hover, if_neg (fun hl => hover (hloses.1 hl).1), List.rtake, List.length_append,
        Nat.sub_eq_zero_of_le (by omega), List.drop_zero]
      exact hc.represents h (by omega)

theorem Represents.putchar (h : Represents rb q) (ch : Byte) :
    ∃ rb', rb.putchar ch = some (if q.length < rb.bufferSize then 1 else 0, rb') ∧
      Represents rb' (if q.length < rb.bufferSize then q ++ [ch] else q) := by
  have hspace := h.spaceLen_eq
  have hfits := h.holds.fits
  unfold RtRingbuffer.putchar
  by_cases hfull : rb.spaceLen = 0
  · rw [if_pos hfull, if_neg (by omega), if_neg (by omega)]
    exact ⟨rb, rfl, h⟩
  · obtain ⟨buf, hcopy, hc⟩ := h.copyChar ch
    rw [if_neg hfull, if_pos (by omega), if_pos (by omega), hcopy]
    exact ⟨_, rfl, hc.represents h (by simp; omega)⟩

theorem bufferSize_putchar {ch : Byte} {r : ℕ × RtRingbuffer} (h : rb.putchar ch = some r) :
    r.2.bufferSize = rb.bufferSize := by
  unfold RtRingbuffer.putchar at h
  split_ifs at h
  · cases h
    rfl
  · obtain ⟨buf, -, hr⟩ := Option.bind_eq_some_iff.1 h
    cases hr
    unfold advanceWrite
    split_ifs <;> rfl

/-- A character that is forced into a full buffer takes the place of the first one. -/
theorem Represents.putcharForce (h : Represents rb q) (ch : Byte) :
    ∃ rb', rb.putcharForce ch = some (1, rb') ∧
      Represents rb' ((q ++ [ch]).rtake rb.bufferSize) := by
  have hfits := h.holds.fits
  have hw := h.write_lt
  obtain ⟨buf, hcopy, hc⟩ := h.copyChar ch
  unfold RtRingbuffer.putcharForce
  rw [hcopy]
  refine ⟨_, rfl, ?_⟩
  generalize { rb with bufferPtr := buf }.advanceWrite = rb' at hc ⊢
  by_cases hfull : rb.status = .full
  · have hlen := h.status_full_iff.1 hfull
    have hside : rb.readMirror ≠ rb.writeMirror := by
      intro heq
      have hspan := h.spans.side.1 (beq_iff_eq.2 heq)
      omega
    have hmirror := hc.writeMirror
    rw [← drop_append_eq_rtake, if_pos hfull]
    split_ifs with hend
    · have hd := hc.discards (m := ~~~rb'.readMirror) h (by simp; omega) (by simp; omega)
      rw [if_neg (by simp; omega)] at hmirror
      rw [if_neg (by rw [hmirror, hc.readMirror, BitVec.not_inj]; exact hside)] at hd
      exact hd
    · have hd := hc.discards (m := rb'.readMirror) h (by simp; omega) (by simp; omega)
      rw [if_pos (by simp; omega)] at hmirror
      rw [if_neg (by rw [hmirror, hc.readMirror]; exact hside)] at hd
      exact hd
  · have hlen : q.length ≠ rb.bufferSize := fun hl => hfull (h.status_full_iff.2 hl)
    rw [if_neg hfull, List.rtake, Nat.sub_eq_zero_of_le (by simp; omega), List.drop_zero]
    exact hc.represents h (by simp; omega)

/-! ## Taking out -/

/-- The read index is moved over the first bytes of the queue. -/
theorem Represents.taken {k : ℕ} {m : BitVec 1} {i : BitVec 15} (h : Represents rb q)
    (hk : k ≤ q.length) (hi : i.toNat = slot rb.bufferSize rb.readIndex.toNat k)
    (hm : m = if rb.bufferSize - rb.readIndex.toNat > k then rb.readMirror else ~~~rb.readMirror) :
    Represents { rb with readMirror := m, readIndex := i } (q.drop k) := by
  have hspans := h.spans.drop h.index_lt h.holds.fits hk
  have hholds := h.holds.drop hk
  have hside : (m == rb.writeMirror) =
      if rb.bufferSize - rb.readIndex.toNat > k then rb.readMirror == rb.writeMirror
      else !(rb.readMirror == rb.writeMirror) := by
    rw [hm]
    split_ifs
    · rfl
    · exact not_beq_left _ _
  rw [← hi, ← hside, ← List.length_drop] at hspans
  rw [← hi] at hholds
  exact ⟨h.size, hholds, hspans⟩

theorem Represents.get (h : Represents rb q) (length : ℕ) :
    ∃ rb', rb.get length = some (q.take length, rb') ∧ Represents rb' (q.drop length) := by
  have hroom := h.holds.room
  have hfits := h.holds.fits
  have hr := h.index_lt
  have hsize := h.size
  unfold RtRingbuffer.get
  dsimp only
  rw [h.dataLen_eq]
  by_cases hnil : q.length = 0
  · obtain rfl := List.eq_nil_of_length_eq_zero hnil
    rw [if_pos List.length_nil, List.take_nil, List.drop_nil]
    exact ⟨rb, rfl, h⟩
  rw [if_neg hnil]
  obtain ⟨k, hk, hle, htake, hdrop⟩ : ∃ k, (if q.length < length then q.length else length) = k ∧
      k ≤ q.length ∧ q.take length = q.take k ∧ q.drop length = q.drop k := by
    refine ⟨_, rfl, ?_, ?_, ?_⟩
    · split_ifs <;> omega
    · split_ifs with hlen
      · rw [List.take_of_length_le (by omega), List.take_length]
      · rfl
    · split_ifs with hlen
      · rw [List.drop_eq_nil_of_le (by omega), List.drop_length]
      · rfl
  rw [hk, htake, hdrop]
  have hread := h.holds.read hle
  unfold Mirror.read at hread
  by_cases hend : rb.bufferSize - rb.readIndex.toNat > k
  · rw [if_pos hend] at hread ⊢
    have hindex : (rb.readIndex + BitVec.ofNat 15 k).toNat =
        slot rb.bufferSize rb.readIndex.toNat k := by
      rw [toNat_add_ofNat hsize (by omega)]
      unfold slot
      split_ifs <;> omega
    rw [memcpyFrom, if_pos (by omega), hread]
    exact ⟨_, rfl, h.taken hle hindex (by rw [if_pos hend])⟩
  · rw [if_neg hend] at hread ⊢
    have hindex : (BitVec.ofNat 15 (k - (rb.bufferSize - rb.readIndex.toNat))).toNat =
        slot rb.bufferSize rb.readIndex.toNat k := by
      rw [BitVec.toNat_ofNat]
      unfold slot
      split_ifs <;> omega
    rw [memcpyFrom, if_pos (by omega), memcpyFrom, if_pos (by omega), ← hread]
    exact ⟨_, rfl, h.taken hle hindex (by rw [if_neg hend])⟩

/-- The contents of the buffer are determined. -/
theorem Represents.unique {q' : List Byte} (h : Represents rb q) (h' : Represents rb q') :
    q = q' := by
  have hlen : q.length = q'.length := h.dataLen_eq.symm.trans h'.dataLen_eq
  obtain ⟨rb1, hget, -⟩ := h.get q.length
  obtain ⟨rb2, hget', -⟩ := h'.get q.length
  rw [List.take_length] at hget
  rw [hlen, List.take_length, ← hlen] at hget'
  cases hget.symm.trans hget'
  rfl

theorem Represents.getchar (h : Represents rb q) :
    ∃ rb', rb.getchar = some (q.take 1, rb') ∧ Represents rb' (q.drop 1) := by
  have hroom := h.holds.room
  have hfits := h.holds.fits
  have hr := h.index_lt
  have hsize := h.size
  unfold RtRingbuffer.getchar
  rw [h.dataLen_eq]
  by_cases hnil : q.length = 0
  · obtain rfl := List.eq_nil_of_length_eq_zero hnil
    rw [if_pos List.length_nil]
    exact ⟨rb, rfl, h⟩
  have hread := h.holds.read (k := 1) (by omega)
  unfold Mirror.read at hread
  rw [if_neg hnil, memcpyFrom, if_pos (by omega)]
  by_cases hlast : rb.readIndex.toNat = rb.bufferSize - 1
  · rw [if_neg (by omega), show rb.bufferSize - rb.readIndex.toNat = 1 by omega, load, load,
      Nat.sub_self, List.take_zero, List.append_nil] at hread
    have hindex : (0 : BitVec 15).toNat = slot rb.bufferSize rb.readIndex.toNat 1 := by
      unfold slot
      rw [if_neg (by omega)]
      show 0 = _
      omega
    refine ⟨_, by rw [load, hread]; rfl, ?_⟩
    rw [if_pos hlast]
    exact h.taken (by omega) hindex (by rw [if_neg (by omega)])
  · rw [if_pos (by omega)] at hread
    have hindex : (rb.readIndex + BitVec.ofNat 15 1).toNat =
        slot rb.bufferSize rb.readIndex.toNat 1 := by
      rw [toNat_add_ofNat hsize (by omega)]
      unfold slot
      rw [if_pos (by omega)]
    refine ⟨_, by rw [hread]; rfl, ?_⟩
    rw [if_neg hlast]
    exact h.taken (by omega) hindex (by rw [if_pos (by omega)])

/-! ## Runs -/

/-- A call of one of the functions. -/
inductive Call
  | put (ptr : List Byte)
  | putForce (ptr : List Byte)
  | get (length : ℕ)
  | putchar (ch : Byte)
  | putcharForce (ch : Byte)
  | getchar
  | reset

/-- The bytes that a call reads, its result, and the ring buffer. -/
def call (rb : RtRingbuffer) : Call → Option ((List Byte × ℕ) × RtRingbuffer)
  | .put ptr => (rb.put ptr).map fun r => (([], r.1), r.2)
  | .putForce ptr => (rb.putForce ptr).map fun r => (([], r.1), r.2)
  | .get length => (rb.get length).map fun r => ((r.1, r.1.length), r.2)
  | .putchar ch => (rb.putchar ch).map fun r => (([], r.1), r.2)
  | .putcharForce ch => (rb.putcharForce ch).map fun r => (([], r.1), r.2)
  | .getchar => rb.getchar.map fun r => ((r.1, r.1.length), r.2)
  | .reset => some (([], 0), rb.reset)

/-- What the calls are for: a queue of at most `n` bytes, the oldest of which a forced call
    discards. -/
def queueCall (n : ℕ) (q : List Byte) : Call → (List Byte × ℕ) × List Byte
  | .put ptr => (([], min ptr.length (n - q.length)), q ++ ptr.take (n - q.length))
  | .putForce ptr => (([], min ptr.length n), (q ++ ptr).rtake n)
  | .get length => ((q.take length, (q.take length).length), q.drop length)
  | .putchar ch => (([], if q.length < n then 1 else 0), if q.length < n then q ++ [ch] else q)
  | .putcharForce ch => (([], 1), (q ++ [ch]).rtake n)
  | .getchar => ((q.take 1, (q.take 1).length), q.drop 1)
  | .reset => (([], 0), [])

/-- The call discards the whole queue and what it puts in. -/
def Empties (rb : RtRingbuffer) (c : Call) : Prop := ∃ ptr, c = .putForce ptr ∧ rb.Loses ptr

theorem Represents.reset (h : Represents rb q) : Represents rb.reset [] :=
  ⟨h.size, holds_nil h.holds.room (lt_of_le_of_lt (Nat.zero_le _) h.index_lt),
    spans_empty (lt_of_le_of_lt (Nat.zero_le _) h.index_lt)⟩

/-- A call gives the result that the queue gives, and holds the queue unless it empties the
    buffer. -/
theorem Represents.call (h : Represents rb q) (c : Call) :
    ∃ rb', rb.call c = some ((queueCall rb.bufferSize q c).1, rb') ∧
      (rb.Empties c → Represents rb' []) ∧
      (¬ rb.Empties c → Represents rb' (queueCall rb.bufferSize q c).2) := by
  have hother : (∀ ptr, c ≠ .putForce ptr) → ¬ rb.Empties c := fun hc ⟨ptr, he, _⟩ => hc ptr he
  cases c with
  | put ptr =>
    obtain ⟨rb', hput, hrep⟩ := h.put ptr
    exact ⟨rb', by rw [RtRingbuffer.call, hput]; rfl, fun he => absurd he (hother nofun),
      fun _ => hrep⟩
  | putForce ptr =>
    obtain ⟨rb', hput, hrep⟩ := h.putForce ptr
    refine ⟨rb', by rw [RtRingbuffer.call, hput]; rfl, ?_, ?_⟩
    · rintro ⟨ptr', hptr, hl⟩
      cases hptr
      rwa [if_pos hl] at hrep
    · intro hne
      rwa [if_neg fun hl => hne ⟨ptr, rfl, hl⟩] at hrep
  | get length =>
    obtain ⟨rb', hget, hrep⟩ := h.get length
    exact ⟨rb', by rw [RtRingbuffer.call, hget]; rfl, fun he => absurd he (hother nofun),
      fun _ => hrep⟩
  | putchar ch =>
    obtain ⟨rb', hput, hrep⟩ := h.putchar ch
    exact ⟨rb', by rw [RtRingbuffer.call, hput]; rfl, fun he => absurd he (hother nofun),
      fun _ => hrep⟩
  | putcharForce ch =>
    obtain ⟨rb', hput, hrep⟩ := h.putcharForce ch
    exact ⟨rb', by rw [RtRingbuffer.call, hput]; rfl, fun he => absurd he (hother nofun),
      fun _ => hrep⟩
  | getchar =>
    obtain ⟨rb', hget, hrep⟩ := h.getchar
    exact ⟨rb', by rw [RtRingbuffer.call, hget]; rfl, fun he => absurd he (hother nofun),
      fun _ => hrep⟩
  | reset => exact ⟨rb.reset, rfl, fun he => absurd he (hother nofun), fun _ => h.reset⟩

/-- The queue that a lossy call should have left is not empty. -/
theorem Empties.ne_nil {c : Call} (h : rb.Empties c) (q : List Byte) :
    (queueCall rb.bufferSize q c).2 ≠ [] := by
  obtain ⟨ptr, rfl, hspace, -, -⟩ := h
  show (q ++ ptr).rtake rb.bufferSize ≠ []
  rw [List.rtake, ← List.length_pos_iff, List.length_drop, List.length_append]
  omega

end RtRingbuffer

/-- A ring buffer beside the queue it stands for. -/
structure Beside where
  rb : RtRingbuffer
  queue : List Byte

namespace Beside

/-- One call on both. -/
def step (s : Beside) (c : RtRingbuffer.Call) : Option Beside :=
  (s.rb.call c).map fun r => ⟨r.2, (RtRingbuffer.queueCall s.rb.bufferSize s.queue c).2⟩

/-- The ring buffer holds the queue. -/
def Agree (s : Beside) : Prop := s.rb.Represents s.queue

/-- A call gives the result that it gives on the queue. -/
def SameResult (s : Beside) (c : RtRingbuffer.Call) : Prop :=
  (s.rb.call c).map Prod.fst = some (RtRingbuffer.queueCall s.rb.bufferSize s.queue c).1

/-- A ring buffer behind `rt_ringbuffer_init`. -/
def start (pool : List Byte) (size : ℕ) : Beside := ⟨.init pool size, []⟩

theorem start_agree {pool : List Byte} {size : ℕ} (hsize : rtAlignSize ≤ size)
    (hmax : size < 2 ^ 15) (hpool : size ≤ pool.length) : (start pool size).Agree := by
  have hle : size / rtAlignSize * rtAlignSize ≤ size := Nat.div_mul_le_self _ _
  have hpos : 0 < size / rtAlignSize * rtAlignSize := by
    unfold rtAlignSize at *
    omega
  exact ⟨lt_of_le_of_lt hle hmax, holds_nil (hle.trans hpool) hpos, spans_empty hpos⟩

theorem step_agree {s s' : Beside} {c : RtRingbuffer.Call} (h : s.Agree)
    (hs : s.step c = some s') : s'.Agree ↔ ¬ s.rb.Empties c := by
  obtain ⟨rb', hcall, hempty, hrep⟩ := h.call c
  unfold step at hs
  rw [hcall] at hs
  cases hs
  constructor
  · intro h' he
    have hlen := h'.dataLen_eq.symm.trans (hempty he).dataLen_eq
    exact he.ne_nil s.queue (List.eq_nil_of_length_eq_zero hlen)
  · exact hrep

/-- The buffer always holds some queue. -/
theorem step_represents {s : Beside} (h : ∃ q, s.rb.Represents q) (c : RtRingbuffer.Call) :
    ∃ s', s.step c = some s' ∧ ∃ q, s'.rb.Represents q := by
  obtain ⟨q, h⟩ := h
  obtain ⟨rb', hcall, hempty, hrep⟩ := h.call c
  refine ⟨_, by rw [step, hcall]; rfl, ?_⟩
  by_cases he : s.rb.Empties c
  · exact ⟨[], hempty he⟩
  · exact ⟨_, hrep he⟩

end Beside

open Beside in
/-- No sequence of calls leaves the buffer, and it is a queue as long as, and only as long as,
    no call of `rt_ringbuffer_put_force` is lossy. -/
theorem ringbuffer_fifo {pool : List Byte} {size : ℕ} (hsize : rtAlignSize ≤ size)
    (hmax : size < 2 ^ 15) (hpool : size ≤ pool.length) (calls : List RtRingbuffer.Call) :
    ∃ tr, exec step (start pool size) calls = some tr ∧
      (Always Agree (start pool size) tr ↔
        AllSteps (fun s c => ¬ s.rb.Empties c) (start pool size) tr) ∧
      (AllSteps (fun s c => ¬ s.rb.Empties c) (start pool size) tr →
        AllSteps SameResult (start pool size) tr) := by
  have hstart := start_agree hsize hmax hpool
  obtain ⟨tr, htr⟩ := exec_isSome step_represents ⟨_, hstart⟩ calls
  have hpath : Path (fun s c s' => step s c = some s') (start pool size) tr := exec_path id htr
  have hiff : Always Agree (start pool size) tr ↔
      AllSteps (fun s c => ¬ s.rb.Empties c) (start pool size) tr :=
    hpath.always_iff (fun _ => True) Agree (fun _ _ => trivial) (fun _ h hs => step_agree h hs)
      trivial hstart
  refine ⟨tr, htr, hiff, fun hok => hpath.allSteps ?_ (hiff.2 hok)⟩
  intro s s' c h _
  obtain ⟨rb', hcall, -⟩ := h.call c
  rw [SameResult, hcall]
  rfl

/-- Five bytes are forced behind two in a buffer of four, around its end. -/
theorem ringbuffer_fifo_empties :
    ¬ Always Beside.Agree (.start [0, 0, 0, 0] 4)
      [(RtRingbuffer.Call.put [1, 2], ⟨⟨[1, 2, 0, 0], 0, 0, 0, 2, 4⟩, [1, 2]⟩),
        (.putForce [3, 4, 5, 6, 7], ⟨⟨[6, 7, 4, 5], 1, 2, 1, 2, 4⟩, [4, 5, 6, 7]⟩)] := by
  obtain ⟨tr, htr, hiff, -⟩ := ringbuffer_fifo (le_refl rtAlignSize) (by decide)
    (le_refl [0, 0, 0, 0].length) [.put [1, 2], .putForce [3, 4, 5, 6, 7]]
  cases htr
  rw [show rtAlignSize = 4 from rfl] at hiff
  intro h
  exact (hiff.1 h).2.1 ⟨_, rfl, by decide⟩

end Abox.Telnet
