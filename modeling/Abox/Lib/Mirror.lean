import Mathlib

/-!
# Queues in a ring with mirrored indices

A queue lies in the first `n` places of a buffer, from a read index on and around the end.
Beside the read index and the write index only one bit is kept: whether both are on the
same side of the mirror, that is, whether the queue does not go around the end.

* `Holds.read`, `Holds.drop`: what is read is the front of the queue.
* `Holds.write`: what is written at the write index is behind the queue.
* `count_eq`: the indices and the bit determine the length of the queue, the full one
  included.
-/

namespace Mirror

variable {α : Type} {n r : ℕ} {buf q xs : List α}

/-! ## Places -/

/-- The place `i` behind the index `r`. -/
def slot (n r i : ℕ) : ℕ := if r + i < n then r + i else r + i - n

theorem slot_zero (h : r < n) : slot n r 0 = r := by
  simp [slot, h]

theorem slot_lt {i : ℕ} (hr : r < n) (hi : i ≤ n) : slot n r i < n := by
  unfold slot
  split_ifs <;> omega

theorem slot_slot {i j : ℕ} (hr : r < n) (h : i + j ≤ n) :
    slot n (slot n r i) j = slot n r (i + j) := by
  unfold slot
  split_ifs <;> omega

/-! ## Copying into and out of the buffer -/

/-- The elements `xs` are copied to the place `off`. -/
def store (buf : List α) (off : ℕ) (xs : List α) : List α :=
  buf.take off ++ xs ++ buf.drop (off + xs.length)

/-- `len` elements from the place `off` on. -/
def load (buf : List α) (off len : ℕ) : List α := (buf.drop off).take len

theorem length_store {off : ℕ} (h : off + xs.length ≤ buf.length) :
    (store buf off xs).length = buf.length := by
  simp [store]
  omega

theorem getElem?_store {off i : ℕ} (h : off + xs.length ≤ buf.length) (hoff : off ≤ i)
    (hi : i < off + xs.length) : (store buf off xs)[i]? = xs[i - off]? := by
  have htake : (buf.take off).length = off := by simp; omega
  rw [store, List.append_assoc, List.getElem?_append_right (by omega), htake,
    List.getElem?_append_left (by omega)]

/-- Outside of what is copied. -/
theorem getElem?_store_of_disjoint {off i : ℕ} (h : off + xs.length ≤ buf.length)
    (hi : i < off ∨ off + xs.length ≤ i) : (store buf off xs)[i]? = buf[i]? := by
  have htake : (buf.take off).length = off := by simp; omega
  rw [store, List.append_assoc]
  rcases hi with hi | hi
  · rw [List.getElem?_append_left (by omega), List.getElem?_take_of_lt hi]
  · rw [List.getElem?_append_right (by omega), htake, List.getElem?_append_right (by omega),
      List.getElem?_drop]
    congr 1
    omega

theorem getElem?_load {off len i : ℕ} (h : i < len) : (load buf off len)[i]? = buf[off + i]? := by
  rw [load, List.getElem?_take_of_lt h, List.getElem?_drop]

theorem length_load {off len : ℕ} (h : off + len ≤ buf.length) :
    (load buf off len).length = len := by
  simp [load]
  omega

/-- The elements `xs` are written from the index `w` on, in two parts if they reach the end. -/
def write (n : ℕ) (buf : List α) (w : ℕ) (xs : List α) : List α :=
  if n - w > xs.length then store buf w xs
  else store (store buf w (xs.take (n - w))) 0 (xs.drop (n - w))

/-- `len` elements from the index `r` on, in two parts if they reach the end. -/
def read (n : ℕ) (buf : List α) (r len : ℕ) : List α :=
  if n - r > len then load buf r len else load buf r (n - r) ++ load buf 0 (len - (n - r))

theorem length_write {w : ℕ} (hbuf : n ≤ buf.length) (hw : w < n) (h : xs.length ≤ n) :
    (write n buf w xs).length = buf.length := by
  unfold write
  split_ifs with hend
  · exact length_store (by omega)
  · have hfirst : (store buf w (xs.take (n - w))).length = buf.length :=
      length_store (by simp; omega)
    rw [length_store (by simp; omega), hfirst]

/-- What is written is found in the places from `w` on. -/
theorem getElem?_write {w i : ℕ} (hbuf : n ≤ buf.length) (hw : w < n) (h : xs.length ≤ n)
    (hi : i < xs.length) : (write n buf w xs)[slot n w i]? = xs[i]? := by
  unfold write slot
  split_ifs with hend hside hside
  · rw [getElem?_store (by omega) (by omega) (by omega), Nat.add_sub_cancel_left]
  · omega
  · have hlen : (store buf w (xs.take (n - w))).length = buf.length :=
      length_store (by simp; omega)
    rw [getElem?_store_of_disjoint (by simp; omega) (by simp; omega),
      getElem?_store (by simp; omega) (by omega) (by simp; omega), Nat.add_sub_cancel_left,
      List.getElem?_take_of_lt (by omega)]
  · have hlen : (store buf w (xs.take (n - w))).length = buf.length :=
      length_store (by simp; omega)
    rw [getElem?_store (by simp; omega) (by omega) (by simp; omega), List.getElem?_drop]
    congr 1
    omega

/-- The other places of the round keep their elements. -/
theorem getElem?_write_of_le {w i : ℕ} (hbuf : n ≤ buf.length) (hw : w < n) (hle : xs.length ≤ i)
    (hi : i < n) : (write n buf w xs)[slot n w i]? = buf[slot n w i]? := by
  unfold write slot
  split_ifs with hend hside hside
  · exact getElem?_store_of_disjoint (by omega) (by omega)
  · exact getElem?_store_of_disjoint (by omega) (by omega)
  · omega
  · have hlen : (store buf w (xs.take (n - w))).length = buf.length :=
      length_store (by simp; omega)
    rw [getElem?_store_of_disjoint (by simp; omega) (by simp; omega),
      getElem?_store_of_disjoint (by simp; omega) (by simp; omega)]

/-! ## The queue -/

/-- The queue `q` lies in the buffer from the index `r` on. -/
structure Holds (n : ℕ) (buf : List α) (r : ℕ) (q : List α) : Prop where
  room : n ≤ buf.length
  index : r < n
  fits : q.length ≤ n
  slots : ∀ i < q.length, buf[slot n r i]? = q[i]?

theorem holds_nil (hbuf : n ≤ buf.length) (hr : r < n) : Holds n buf r [] :=
  ⟨hbuf, hr, Nat.zero_le _, fun _ hi => absurd hi (Nat.not_lt_zero _)⟩

/-- The front of the queue is given up. -/
theorem Holds.drop {k : ℕ} (h : Holds n buf r q) (hk : k ≤ q.length) :
    Holds n buf (slot n r k) (q.drop k) := by
  have hfits := h.fits
  refine ⟨h.room, slot_lt h.index (by omega), by simp; omega, ?_⟩
  intro i hi
  rw [List.length_drop] at hi
  rw [slot_slot h.index (by omega), List.getElem?_drop]
  exact h.slots (k + i) (by omega)

/-- The front of the queue is read. -/
theorem Holds.read {k : ℕ} (h : Holds n buf r q) (hk : k ≤ q.length) :
    read n buf r k = q.take k := by
  have hbuf := h.room
  have hr := h.index
  have hfits := h.fits
  apply List.ext_getElem?
  intro i
  by_cases hi : i < k
  · rw [List.getElem?_take_of_lt hi, ← h.slots i (by omega)]
    unfold Mirror.read slot
    split_ifs with hend hside hside
    · exact getElem?_load hi
    · omega
    · rw [List.getElem?_append_left (by rw [length_load (by omega)]; omega),
        getElem?_load (by omega)]
    · rw [List.getElem?_append_right (by rw [length_load (by omega)]; omega),
        length_load (by omega), getElem?_load (by omega)]
      congr 1
      omega
  · have hlen : (Mirror.read n buf r k).length = k := by
      unfold Mirror.read
      split_ifs with hend
      · exact length_load (by omega)
      · rw [List.length_append, length_load (by omega), length_load (by omega)]
        omega
    rw [List.getElem?_eq_none (by omega), List.getElem?_eq_none (by simp; omega)]

/-- What is written behind the queue belongs to it. -/
theorem Holds.write (h : Holds n buf r q) (xs : List α) (hfits : q.length + xs.length ≤ n) :
    Holds n (write n buf (slot n r q.length) xs) r (q ++ xs) := by
  have hr := h.index
  have hw : slot n r q.length < n := slot_lt hr h.fits
  have hlen : (Mirror.write n buf (slot n r q.length) xs).length = buf.length :=
    length_write h.room hw (by omega)
  refine ⟨by rw [hlen]; exact h.room, hr, by simp; omega, ?_⟩
  intro i hi
  rw [List.length_append] at hi
  by_cases hold : i < q.length
  · -- The place is more than `xs.length` behind the write index, around the end.
    have hplace : slot n r i = slot n (slot n r q.length) (n - q.length + i) := by
      unfold slot
      split_ifs <;> omega
    rw [hplace, getElem?_write_of_le h.room hw (by omega) (by omega), ← hplace,
      List.getElem?_append_left hold]
    exact h.slots i hold
  · have hplace : slot n r i = slot n (slot n r q.length) (i - q.length) := by
      rw [slot_slot hr (by omega)]
      congr 1
      omega
    rw [hplace, getElem?_write h.room hw (by omega) (by omega),
      List.getElem?_append_right (by omega)]

/-- What is written over the front of the queue takes its place. -/
theorem Holds.overwrite (h : Holds n buf r q) (hxs : xs.length ≤ n)
    (hover : n ≤ q.length + xs.length) :
    Holds n (Mirror.write n buf (slot n r q.length) xs) (slot n (slot n r q.length) xs.length)
      ((q ++ xs).drop (q.length + xs.length - n)) := by
  have hfits := h.fits
  have hr := h.index
  have hdrop : q.length + xs.length - n ≤ q.length := by omega
  have hw : slot n (slot n r (q.length + xs.length - n))
      (q.drop (q.length + xs.length - n)).length = slot n r q.length := by
    rw [List.length_drop, slot_slot hr (by omega)]
    congr 1
    omega
  have hr' : slot n r (q.length + xs.length - n) = slot n (slot n r q.length) xs.length := by
    unfold slot
    split_ifs <;> omega
  have hwrite := (h.drop hdrop).write xs (by simp; omega)
  rwa [hw, hr', ← List.drop_append_of_le_length hdrop] at hwrite

/-! ## The length -/

/-- The length that the two indices and the sides tell. -/
def count (n r w : ℕ) (same : Bool) : ℕ :=
  if r = w then if same then 0 else n else if w > r then w - r else n - (r - w)

/-- The indices and the sides of a queue of `k` elements. -/
structure Spans (n r w : ℕ) (same : Bool) (k : ℕ) : Prop where
  index : w = slot n r k
  side : same = true ↔ r + k < n

theorem count_eq {w k : ℕ} {same : Bool} (hr : r < n) (hk : k ≤ n) (h : Spans n r w same k) :
    count n r w same = k := by
  obtain ⟨rfl, hside⟩ := h
  unfold count slot
  cases same <;> simp at hside ⊢ <;> split_ifs <;> omega

theorem Spans.drop {w k l : ℕ} {same : Bool} (hr : r < n) (hk : k ≤ n) (hl : l ≤ k)
    (h : Spans n r w same k) :
    Spans n (slot n r l) w (if n - r > l then same else !same) (k - l) := by
  obtain ⟨rfl, hside⟩ := h
  refine ⟨by rw [slot_slot hr (by omega)]; congr 1; omega, ?_⟩
  unfold slot
  cases same <;> simp at hside ⊢ <;> split_ifs <;> omega

theorem Spans.append {w k l : ℕ} {same : Bool} (hr : r < n) (hk : k + l ≤ n)
    (h : Spans n r w same k) :
    Spans n r (slot n w l) (if n - w > l then same else !same) (k + l) := by
  obtain ⟨rfl, hside⟩ := h
  refine ⟨slot_slot hr hk, ?_⟩
  unfold slot
  cases same <;> simp at hside ⊢ <;> split_ifs <;> omega

/-- A full queue starts where it ends, on the other side. -/
theorem spans_full (n w : ℕ) : Spans n w w false n :=
  ⟨by unfold slot; rw [if_neg (by omega)]; omega, by simp⟩

theorem spans_empty {w : ℕ} (hw : w < n) : Spans n w w true 0 :=
  ⟨(slot_zero hw).symm, by simpa using hw⟩

end Mirror
