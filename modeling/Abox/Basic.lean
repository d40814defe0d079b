import Mathlib

/-!
# Bytes, buffers and the frame header

What every part of the firmware shares: the return codes of RT-Thread, the
buffer length `BUFF_LEN` (`ctrl.h` line 77), the header `stPackCmd` that starts
every frame (`ctrl.h` lines 169–175) and `data_left` (`exchange.c` lines
729–743).

A C buffer is the list of its bytes. `ctrl.h` sets `#pragma pack(1)` and never
resets it, so structures have no padding.
-/

namespace Abox

abbrev Byte := BitVec 8

/-- `BUFF_LEN`. -/
def buffLen : ℕ := 1024

/-- The two `rt_err_t` values the modelled functions return. -/
inductive RtErr
  | rtEok
  | rtError
  deriving DecidableEq

/-- `AT_STATUS` (`mydef.h` lines 143–156). -/
inductive AtStatus
  | atBoot
  | atFree
  | atSend
  | atRecv
  | atCsq
  | atMdn
  | atClose
  | atSerUpdata
  | atYmodemUpdata
  deriving DecidableEq

/-! ## Fallible steps -/

theorem bind_eq_ok_iff {ε α β : Type} {x : Except ε α} {f : α → Except ε β} {b : β} :
    (x >>= f) = .ok b ↔ ∃ a, x = .ok a ∧ f a = .ok b := by
  cases x with
  | error e => exact iff_of_false nofun fun ⟨_, h, _⟩ => nomatch h
  | ok a =>
    constructor
    · exact fun h => ⟨a, rfl, h⟩
    · rintro ⟨a', ha, h⟩
      obtain rfl := Except.ok.inj ha
      exact h

/-! ## Buffers -/

/-- `data_left(buf, len, buf_size)` on a buffer of `buf_size` bytes: the bytes
    from `len` on move to the front, the rest is zeroed. -/
def dataLeft (buf : List Byte) (len : ℕ) : List Byte :=
  buf.drop len ++ List.replicate (min len buf.length) 0

@[simp] theorem length_dataLeft (buf : List Byte) (len : ℕ) :
    (dataLeft buf len).length = buf.length := by
  simp only [dataLeft, List.length_append, List.length_drop, List.length_replicate]
  omega

/-- Reading the `n` bytes at a pointer whose object is `src`. A read past the end
    of the object, of which C says nothing, is filled up with zeros. -/
def readN (src : List Byte) (n : ℕ) : List Byte := (List.range n).map fun k => src.getD k 0

@[simp] theorem length_readN (src : List Byte) (n : ℕ) : (readN src n).length = n := by
  simp [readN]

theorem readN_of_le {src : List Byte} {n : ℕ} (h : n ≤ src.length) : readN src n = src.take n := by
  apply List.ext_getElem
  · simp [h]
  · intro k h1 h2
    have hk : k < src.length := by simp at h2; omega
    simp [readN, List.getElem?_eq_getElem hk]

theorem readN_length (src : List Byte) : readN src src.length = src := by
  rw [readN_of_le le_rfl, List.take_length]

theorem getD_dataLeft (buf : List Byte) (len k : ℕ) :
    (dataLeft buf len).getD k 0 = buf.getD (len + k) 0 := by
  unfold dataLeft
  by_cases hk : k < (buf.drop len).length
  · rw [List.getD_append _ _ _ _ hk]
    simp [List.getD_eq_getElem?_getD]
  · have hlen : buf.length ≤ len + k := by
      rw [List.length_drop] at hk
      omega
    rw [List.getD_append_right _ _ _ _ (Nat.le_of_not_lt hk), List.getD_eq_default _ _ hlen,
      List.getD_eq_getElem?_getD]
    exact List.getElem?_getD_replicate_default_eq ..

/-- Reading in two parts, the buffer moved down in between. -/
theorem readN_add (src : List Byte) (m n : ℕ) :
    readN src (m + n) = readN src m ++ readN (dataLeft src m) n := by
  unfold readN
  rw [List.range_add, List.map_append, List.map_map]
  congr 1
  exact List.map_congr_left fun k _ => (getD_dataLeft src m k).symm

/-- The little-endian `rt_uint16_t` at offset `k`. -/
def u16At (bs : List Byte) (k : ℕ) : BitVec 16 := bs.getD (k + 1) 0 ++ bs.getD k 0

/-- The little-endian `rt_uint32_t` at offset `k`. -/
def u32At (bs : List Byte) (k : ℕ) : BitVec 32 := u16At bs (k + 2) ++ u16At bs k

/-! ## Frame header -/

/-- `stPackCmd`. -/
structure StPackCmd where
  soh : Byte
  cmd : Byte
  id : BitVec 32
  len : BitVec 16

/-- `sizeof(stPackCmd)`. -/
def sizeofStPackCmd : ℕ := 8

/-- A buffer read as an `stPackCmd`. -/
def StPackCmd.ofBytes (bs : List Byte) : StPackCmd :=
  { soh := bs.getD 0 0, cmd := bs.getD 1 0, id := u32At bs 2, len := u16At bs 6 }

/-- `packcmd->len + sizeof(stPackCmd) + 2` as an `rt_uint16_t`: the total length
    a header claims for its frame. -/
def StPackCmd.frameLen (packcmd : StPackCmd) : ℕ := (packcmd.len + 10).toNat

end Abox
