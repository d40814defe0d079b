import Abox.Basic

/-!
# Message queues

Model of `rt_mq_send` and `rt_mq_recv` (`Libraries/kernel/ipc.c` lines
1924–1999 and 2095–2221). A queue owns a fixed number of slots, each as long as
the longest message. A message is copied to a slot of the free list, in which
the rest of the slot keeps what was written to it before; a receiver gets the
slot as a whole.

* `RtMq.wellFormed_send`, `RtMq.wellFormed_recv`: no slot is lost, and none
  changes its length.
-/

namespace Abox

/-- `struct rt_messagequeue`: the size of a slot, the slots with the messages
    that are in the queue, the first one first, and those of the free list. -/
structure RtMq where
  msgSize : ℕ
  queue : List (List Byte)
  free : List (List Byte)

/-- The slots are of the size they should be, and `maxMsgs` many. -/
structure RtMq.WellFormed (maxMsgs : ℕ) (mq : RtMq) : Prop where
  slots : mq.queue.length + mq.free.length = maxMsgs
  length_queue : ∀ msg ∈ mq.queue, msg.length = mq.msgSize
  length_free : ∀ msg ∈ mq.free, msg.length = mq.msgSize

/-- `rt_mq_send`, `none` if it returns an error. -/
def rt_mq_send (mq : RtMq) (buffer : List Byte) : Option RtMq :=
  if mq.msgSize < buffer.length then none
  else
    match mq.free with
    | [] => none
    | msg :: free =>
      some { mq with queue := mq.queue ++ [buffer ++ msg.drop buffer.length], free := free }

/-- `rt_mq_recv`: what it copies to the buffer, `none` if there is no message. -/
def rt_mq_recv (mq : RtMq) (size : ℕ) : Option (List Byte × RtMq) :=
  match mq.queue with
  | [] => none
  | msg :: queue =>
    some (msg.take (if mq.msgSize < size then mq.msgSize else size),
      { mq with queue := queue, free := msg :: mq.free })

theorem RtMq.wellFormed_send {maxMsgs : ℕ} {mq mq' : RtMq} {buffer : List Byte}
    (h : mq.WellFormed maxMsgs) (hsend : rt_mq_send mq buffer = some mq') :
    mq'.WellFormed maxMsgs := by
  unfold rt_mq_send at hsend
  split_ifs at hsend with hlen
  cases hfree : mq.free with
  | nil =>
    rw [hfree] at hsend
    cases hsend
  | cons msg free =>
    rw [hfree] at hsend
    obtain rfl := Option.some.inj hsend
    have hslots := h.slots
    have hmsg : msg.length = mq.msgSize := h.length_free msg (by simp [hfree])
    rw [hfree, List.length_cons] at hslots
    refine ⟨?_, fun m hm => ?_, fun m hm => h.length_free m ?_⟩
    · show (mq.queue ++ [_]).length + free.length = maxMsgs
      rw [List.length_append, List.length_singleton]
      omega
    · rcases List.mem_append.1 hm with hm | hm
      · exact h.length_queue m hm
      · obtain rfl := List.mem_singleton.1 hm
        show _ = mq.msgSize
        rw [List.length_append, List.length_drop]
        omega
    · rw [hfree]
      exact List.mem_cons_of_mem _ hm

theorem RtMq.wellFormed_recv {maxMsgs size : ℕ} {mq mq' : RtMq} {msg : List Byte}
    (h : mq.WellFormed maxMsgs) (hrecv : rt_mq_recv mq size = some (msg, mq')) :
    mq'.WellFormed maxMsgs := by
  unfold rt_mq_recv at hrecv
  cases hqueue : mq.queue with
  | nil =>
    rw [hqueue] at hrecv
    cases hrecv
  | cons slot queue =>
    rw [hqueue] at hrecv
    obtain ⟨-, rfl⟩ := Prod.mk.inj (Option.some.inj hrecv)
    have hslots := h.slots
    rw [hqueue, List.length_cons] at hslots
    refine ⟨?_, fun m hm => h.length_queue m ?_, fun m hm => ?_⟩
    · show queue.length + (slot :: mq.free).length = maxMsgs
      rw [List.length_cons]
      omega
    · rw [hqueue]
      exact List.mem_cons_of_mem _ hm
    · rcases List.mem_cons.1 hm with rfl | hm
      · exact h.length_queue m (by simp [hqueue])
      · exact h.length_free m hm

end Abox
