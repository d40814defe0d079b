import Abox.Server.Link
import Abox.Update.Bounds

/-!
# The update mode

While `Cdma_Info.AT_status` is `AT_SER_UPDATA`, `determineAboxState`
(`Abox/src/sub_G_A.c` lines 966–988) waits and `processDataFromServer` discards
the frames for Cboxes. `process_DEV_USER_RUPDATA` sets the status before it
looks at the request, and resets it behind the receiving loop only.

* `modeLeft_iff`: a call that returns has left the mode exactly if it took the
  request.
* `version_too_low`: a request for version 0.
-/

namespace Abox.Update

open Server

/-! ## Specification -/

/-- The condition of the loop in which `determineAboxState` waits. -/
def DetermineAboxStateWaits (link : ServerConnectStatus) (status : AtStatus) : Prop :=
  link ≠ .connectServer ∨ status = .atSerUpdata ∨ status = .atYmodemUpdata

/-- The update has left its mode: the status is free, `determineAboxState` does
    not wait while there is a link, and no frame from the server is discarded. -/
structure ModeLeft (status : AtStatus) : Prop where
  free : status = .atFree
  polls : ¬ DetermineAboxStateWaits .connectServer status
  dispatched : ∀ appId packcmd, target appId packcmd status ≠ .discarded

theorem modeLeft_atFree : ModeLeft .atFree := by
  refine ⟨rfl, ?_, fun appId packcmd => ?_⟩
  · rintro (h | h | h)
    · exact h rfl
    · cases h
    · cases h
  · unfold target
    split_ifs with hid hstatus
    · simp
    · simp
    · exact absurd ⟨by decide, by decide⟩ hstatus

/-! ## Returns -/

/-- The loop is only left to where the status is reset. -/
theorem recvLoop_atStatus {cmd12 : TcmdInfo} {s s' : State} {msgs : List (Option (List Byte))}
    {ret : ℤ} (h : s.recvLoop cmd12 msgs = .returned ret s') : s'.atStatus = .atFree := by
  induction msgs generalizing s with
  | nil => cases h
  | cons msg msgs ih =>
    rw [State.recvLoop] at h
    cases hpass : s.recvPass cmd12 msg with
    | again t =>
      rw [hpass] at h
      exact ih h
    | ended r t =>
      rw [hpass] at h
      exact (finish_returned h).2.atStatus
    | hang =>
      rw [hpass] at h
      cases h

/-- A request that is not taken is answered, and the mode stays. -/
theorem process_of_rejected (d : Device) (send : List Byte) {rev : List Byte}
    (h : ¬ AcceptsRequest rev) (msgs : List (Option (List Byte))) :
    ∃ s', process_DEV_USER_RUPDATA d send rev msgs = .returned 0 s' ∧
      s'.atStatus = .atSerUpdata := by
  unfold process_DEV_USER_RUPDATA
  dsimp only
  rw [if_pos (not_not.1 h)]
  exact ⟨_, rfl, rfl⟩

/-- A call that returns has left the mode exactly if it took the request. -/
theorem modeLeft_iff {d : Device} {send rev : List Byte} {msgs : List (Option (List Byte))}
    {ret : ℤ} {s' : State} (h : process_DEV_USER_RUPDATA d send rev msgs = .returned ret s') :
    ModeLeft s'.atStatus ↔ AcceptsRequest rev := by
  by_cases hreq : AcceptsRequest rev
  · rw [process_eq_recvLoop hreq] at h
    rw [recvLoop_atStatus h]
    exact iff_of_true modeLeft_atFree hreq
  · obtain ⟨t, ht, hstatus⟩ := process_of_rejected d send hreq msgs
    rw [ht] at h
    cases h
    refine iff_of_false (fun hleft => ?_) hreq
    have hfree := hleft.free
    rw [hstatus] at hfree
    cases hfree

/-- The two messages of a program of four bytes, with a wait in between. -/
def twoHalves : List (Option (List Byte)) :=
  [some (exampleMessage 0 [0xFF, 0xFF]), none, some (exampleMessage 2 [0xFF, 0xFF])]

/-- A request for four bytes, which come in two messages. -/
theorem modeLeft_four : ∃ s', process_DEV_USER_RUPDATA (exampleDevice fun _ => 0xFF)
      (List.replicate 1024 0) (exampleRequest 4) twoHalves = .returned 1 s' ∧
    ModeLeft s'.atStatus := by
  have hreport : Result.report (process_DEV_USER_RUPDATA (exampleDevice fun _ => 0xFF)
      (List.replicate 1024 0) (exampleRequest 4) twoHalves) = some (1, 4) := by
    decide +kernel
  obtain ⟨s', hrun, -⟩ := Result.eq_of_report hreport
  exact ⟨s', hrun, (modeLeft_iff hrun).2 (by decide +kernel)⟩

/-- After a request for version 0 the device stays in the mode: it waits, and
    frames for Cboxes are discarded. -/
theorem version_too_low : ∃ s', process_DEV_USER_RUPDATA (exampleDevice fun _ => 0xFF)
      (List.replicate 1024 0)
      (packcmdBytes ⟨0x23, 12, 1, 16⟩ ++ (TcmdInfo.mk 0 0 0 4).toBytes) [] = .returned 0 s' ∧
    s'.atStatus ≠ .atFree ∧ DetermineAboxStateWaits .connectServer s'.atStatus ∧
      target 1 ⟨0x23, 2, 7, 0⟩ s'.atStatus = .discarded := by
  have hreq : ¬ AcceptsRequest
      (packcmdBytes ⟨0x23, 12, 1, 16⟩ ++ (TcmdInfo.mk 0 0 0 4).toBytes) := by
    decide +kernel
  obtain ⟨s', hrun, hstatus⟩ := process_of_rejected (exampleDevice fun _ => 0xFF)
    (List.replicate 1024 0) hreq []
  refine ⟨s', hrun, ?_, ?_, ?_⟩
  · rw [hstatus]
    decide
  · exact Or.inr (Or.inl hstatus)
  · rw [hstatus]
    decide

end Abox.Update
