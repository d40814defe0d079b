import Abox.Update.Bounds

/-!
# Updates that make no progress

The receiving loop counts in `err` what brings it no further, and gives up when
a receive times out at more than five. Each message that comes in sets the
counter back, also one that is no chunk that counts.

* `gaveUp_iff`: exactly when results without progress have ended the loop.
* `seven_timeouts`: seven timeouts in a row always end it.
* `no_bound`: no number of results without progress does.
-/

namespace Abox.Update

/-! ## Specification -/

/-- A result of `mq_recv` that makes no progress: a timeout, or a `TCMD_11` frame
    whose offset differs from `cmd_11.flen`. -/
def NoProgress (s : State) : Option (List Byte) → Prop
  | none => True
  | some rev => (StPackCmd.ofBytes rev).cmd = 11 ∧ u32At rev 8 ≠ s.cmd11.flen

instance (s : State) (msg : Option (List Byte)) : Decidable (NoProgress s msg) :=
  match msg with
  | none => isTrue trivial
  | some _ => inferInstanceAs (Decidable (_ ∧ _))

/-- A frame for another device. -/
def Foreign (s : State) (msg : Option (List Byte)) : Prop :=
  ∃ rev, msg = some rev ∧ (StPackCmd.ofBytes rev).id ≠ setupAppId s.sysSetup

/-- The results since progress was last made, `since` being those at the state `s`. -/
def State.idle (cmd12 : TcmdInfo) (s : State) (since : List (Option (List Byte))) :
    List (Option (List Byte)) → List (Option (List Byte))
  | [] => since
  | msg :: msgs =>
    match s.recvPass cmd12 msg with
    | .again s' => idle cmd12 s' (if NoProgress s msg then since ++ [msg] else []) msgs
    | _ => since

section Silence

variable {α : Type}

/-- There are seven timeouts at the start, or six directly behind a message. -/
def Silent (msgs : List (Option α)) : Prop :=
  List.replicate 7 none <+: msgs ∨ ∃ rev, some rev :: List.replicate 6 none <:+: msgs

/-! ## The counter -/

/-- The counter after a result without progress. -/
def count (err : ℕ) : Option α → ℕ
  | none => err + 1
  | some _ => 1

/-- Some timeout finds the counter above five. -/
def Exhausts : ℕ → List (Option α) → Prop
  | _, [] => False
  | err, none :: msgs => 5 < err ∨ Exhausts (err + 1) msgs
  | _, some _ :: msgs => Exhausts 1 msgs

theorem exhausts_cons (err : ℕ) (msg : Option α) (msgs : List (Option α)) :
    Exhausts err (msg :: msgs) ↔ Exhausts err [msg] ∨ Exhausts (count err msg) msgs := by
  cases msg with
  | none =>
    show 5 < err ∨ Exhausts (err + 1) msgs ↔ (5 < err ∨ False) ∨ Exhausts (err + 1) msgs
    rw [or_false]
  | some rev =>
    show Exhausts 1 msgs ↔ False ∨ Exhausts 1 msgs
    rw [false_or]

theorem exhausts_append (err : ℕ) (msgs msgs' : List (Option α)) :
    Exhausts err (msgs ++ msgs') ↔ Exhausts err msgs ∨ Exhausts (msgs.foldl count err) msgs' := by
  induction msgs generalizing err with
  | nil => exact (false_or _).symm ▸ Iff.rfl
  | cons msg msgs ih =>
    rw [List.cons_append, exhausts_cons, ih, exhausts_cons err msg msgs, or_assoc]
    rfl

/-- From `err` on, the timeouts that are left at the start exhaust the counter,
    or six behind a message do. -/
theorem exhausts_iff {err : ℕ} (herr : err ≤ 6) (msgs : List (Option α)) :
    Exhausts err msgs ↔ List.replicate (7 - err) none <+: msgs ∨
      ∃ rev, some rev :: List.replicate 6 none <:+: msgs := by
  induction msgs generalizing err with
  | nil =>
    refine iff_of_false id ?_
    rintro (h | ⟨rev, h⟩)
    · have hlen := h.length_le
      rw [List.length_replicate, List.length_nil] at hlen
      omega
    · have hlen := h.length_le
      rw [List.length_cons, List.length_nil] at hlen
      omega
  | cons msg msgs ih =>
    rw [show 7 - err = (6 - err) + 1 by omega, List.replicate_succ]
    simp only [List.infix_cons_iff, List.cons_prefix_cons]
    cases msg with
    | none =>
      show 5 < err ∨ Exhausts (err + 1) msgs ↔ _
      simp only [reduceCtorEq, false_and, false_or, true_and]
      by_cases h5 : 5 < err
      · rw [show 6 - err = 0 by omega]
        exact iff_of_true (Or.inl h5) (Or.inl (List.nil_prefix))
      · rw [ih (show err + 1 ≤ 6 by omega), show 7 - (err + 1) = 6 - err by omega]
        simp only [h5, false_or]
    | some rev =>
      show Exhausts 1 msgs ↔ _
      rw [ih (by decide)]
      simp only [reduceCtorEq, false_and, false_or, Option.some.injEq]
      constructor
      · rintro (h | ⟨r, h⟩)
        · exact ⟨rev, Or.inl ⟨rfl, h⟩⟩
        · exact ⟨r, Or.inr h⟩
      · rintro ⟨r, ⟨-, h⟩ | h⟩
        · exact Or.inl h
        · exact Or.inr ⟨r, h⟩

theorem exhausts_zero_iff (msgs : List (Option α)) : Exhausts 0 msgs ↔ Silent msgs :=
  exhausts_iff (by decide) msgs

/-- Messages without end keep the counter at one. -/
theorem not_exhausts_messages (err n : ℕ) (rev : α) :
    ¬ Exhausts err (List.replicate n (some rev)) := by
  induction n generalizing err with
  | zero => exact id
  | succ n ih => exact ih 1

end Silence

/-! ## One pass -/

/-- A frame for another device ends the loop. -/
theorem recvPass_of_foreign (cmd12 : TcmdInfo) {s : State} {msg : Option (List Byte)}
    (h : Foreign s msg) : ∃ s', s.recvPass cmd12 msg = .ended (-1) s' := by
  obtain ⟨rev, rfl, hid⟩ := h
  exact ⟨_, recvPass_other cmd12 fun h11 => hid h11.1⟩

/-- Without progress, a pass for the device itself counts or gives up. -/
theorem recvPass_of_noProgress (cmd12 : TcmdInfo) {s : State} {msg : Option (List Byte)}
    (h : NoProgress s msg) (hown : ¬ Foreign s msg) :
    (Exhausts s.err [msg] ∧ ∃ s', s.recvPass cmd12 msg = .ended (-1) s') ∨
      (¬ Exhausts s.err [msg] ∧ ∃ s', s.recvPass cmd12 msg = .again s' ∧
        s'.err = count s.err msg ∧ s'.sysSetup = s.sysSetup ∧ s'.cmd11 = s.cmd11) := by
  cases msg with
  | none =>
    rw [State.recvPass, State.timeout]
    by_cases herr : 5 < s.err
    · rw [if_pos herr]
      exact Or.inl ⟨Or.inl herr, s, rfl⟩
    · rw [if_neg herr]
      exact Or.inr ⟨by rintro (h | h); exacts [herr h, h], _, rfl, rfl, rfl, rfl⟩
  | some rev =>
    have hid : (StPackCmd.ofBytes rev).id = setupAppId s.sysSetup := by
      by_contra hid
      exact hown ⟨rev, rfl, hid⟩
    rw [recvPass_mismatch cmd12 ⟨hid, h.1⟩ h.2]
    exact Or.inr ⟨id, _, rfl, rfl, rfl, rfl⟩

/-- A chunk that does not end the loop leaves the counter at zero. -/
theorem err_of_progress {cmd12 : TcmdInfo} {s s' : State} {msg : Option (List Byte)}
    (h : s.recvPass cmd12 msg = .again s') (hmsg : ¬ NoProgress s msg) : s'.err = 0 := by
  cases msg with
  | none => exact absurd trivial hmsg
  | some rev =>
    by_cases h11 : IsTcmd11 (setupAppId s.sysSetup) rev
    · have hoff : u32At rev 8 = s.cmd11.flen := by
        by_contra hoff
        exact hmsg ⟨h11.2, hoff⟩
      rw [recvPass_chunk cmd12 h11 hoff] at h
      cases hw : Flash.writeByteToFlash s.mem s.startAddr.toNat (chunk rev) with
      | none =>
        rw [hw] at h
        cases h
      | some p =>
        rw [hw] at h
        by_cases hend : (s.advance rev p.2).cmd11.flen = cmd12.flen
        · simp only [written_of_eq hend] at h
          split_ifs at h
        · simp only [written_of_ne hend] at h
          cases h
          rfl
    · rw [recvPass_other cmd12 h11] at h
      cases h

theorem finish_failed (s : State) (cmd12 : TcmdInfo) :
    ∃ s', s.finish cmd12 (-1) = .returned (-1) s' := ⟨_, rfl⟩

/-! ## Runs -/

theorem recvLoop_append {cmd12 : TcmdInfo} {s s' : State} {msgs : List (Option (List Byte))}
    (h : s.recvLoop cmd12 msgs = .running s') (msgs' : List (Option (List Byte))) :
    s.recvLoop cmd12 (msgs ++ msgs') = s'.recvLoop cmd12 msgs' := by
  induction msgs generalizing s with
  | nil =>
    cases h
    rfl
  | cons msg msgs ih =>
    rw [State.recvLoop] at h
    rw [List.cons_append, State.recvLoop]
    cases hpass : s.recvPass cmd12 msg with
    | again t =>
      rw [hpass] at h
      exact ih h
    | ended ret t =>
      rw [hpass] at h
      exact absurd h (finish_ne_running t cmd12 ret s')
    | hang =>
      rw [hpass] at h
      cases h

/-- Results without progress end the loop exactly if one is for another device or
    they exhaust the counter. -/
theorem recvLoop_gaveUp_iff (cmd12 : TcmdInfo) {s : State} {msgs : List (Option (List Byte))}
    (h : ∀ msg ∈ msgs, NoProgress s msg) :
    (∃ s', s.recvLoop cmd12 msgs = .returned (-1) s') ↔
      Exhausts s.err msgs ∨ ∃ msg ∈ msgs, Foreign s msg := by
  induction msgs generalizing s with
  | nil =>
    refine iff_of_false ?_ ?_
    · rintro ⟨s', hrun⟩
      cases hrun
    · rintro (hno | ⟨msg, hmem, -⟩)
      · exact hno
      · cases hmem
  | cons msg msgs ih =>
    rw [State.recvLoop, exhausts_cons]
    simp only [List.mem_cons, exists_eq_or_imp]
    by_cases hown : Foreign s msg
    · obtain ⟨t, ht⟩ := recvPass_of_foreign cmd12 hown
      rw [ht]
      exact iff_of_true (finish_failed t cmd12) (Or.inr (Or.inl hown))
    · rcases recvPass_of_noProgress cmd12 (h msg List.mem_cons_self) hown with
        ⟨hno, t, ht⟩ | ⟨hno, t, ht, herr, hsetup, hcmd⟩
      · rw [ht]
        exact iff_of_true (finish_failed t cmd12) (Or.inl (Or.inl hno))
      · have hsame : ∀ m, NoProgress t m ↔ NoProgress s m := by
          intro m
          cases m with
          | none => exact Iff.rfl
          | some rev =>
            unfold NoProgress
            rw [hcmd]
        have hforeign : ∀ m, Foreign t m ↔ Foreign s m := by
          intro m
          unfold Foreign
          rw [hsetup]
        rw [ht, ih fun m hm => (hsame m).2 (h m (List.mem_cons_of_mem _ hm)), herr]
        simp only [hforeign, hno, hown, false_or]

/-- The counter is what the results since the last progress make of it. -/
theorem err_of_running {cmd12 : TcmdInfo} {s s' : State} (since : List (Option (List Byte)))
    {msgs : List (Option (List Byte))} (h : s.recvLoop cmd12 msgs = .running s')
    (herr : s.err = since.foldl count 0) (hno : ¬ Exhausts 0 since) :
    s'.err = (s.idle cmd12 since msgs).foldl count 0 ∧
      ¬ Exhausts 0 (s.idle cmd12 since msgs) := by
  induction msgs generalizing s since with
  | nil =>
    cases h
    exact ⟨herr, hno⟩
  | cons msg msgs ih =>
    rw [State.recvLoop] at h
    rw [State.idle]
    cases hpass : s.recvPass cmd12 msg with
    | again t =>
      rw [hpass] at h
      show _ = List.foldl count 0 (t.idle cmd12 _ msgs) ∧ ¬ Exhausts 0 (t.idle cmd12 _ msgs)
      by_cases hmsg : NoProgress s msg
      · rw [if_pos hmsg]
        have hown : ¬ Foreign s msg := by
          intro hown
          obtain ⟨u, hu⟩ := recvPass_of_foreign cmd12 hown
          rw [hpass] at hu
          cases hu
        rcases recvPass_of_noProgress cmd12 hmsg hown with
          ⟨-, u, hu⟩ | ⟨hone, u, hu, hcount, -, -⟩
        · rw [hpass] at hu
          cases hu
        · rw [hpass] at hu
          cases hu
          apply ih _ h
          · rw [hcount, herr, List.foldl_append]
            rfl
          · rw [exhausts_append, ← herr]
            exact not_or.2 ⟨hno, hone⟩
      · rw [if_neg hmsg]
        exact ih [] h (err_of_progress hpass hmsg) id
    | ended ret t =>
      rw [hpass] at h
      exact absurd h (finish_ne_running t cmd12 ret s')
    | hang =>
      rw [hpass] at h
      cases h

/-! ## Updates -/

theorem acceptsRequest_of_running {d : Device} {send rev : List Byte}
    {msgs : List (Option (List Byte))} {s : State}
    (h : process_DEV_USER_RUPDATA d send rev msgs = .running s) : AcceptsRequest rev := by
  by_contra hreq
  unfold process_DEV_USER_RUPDATA at h
  dsimp only at h
  rw [if_pos (not_not.1 hreq)] at h
  cases h

/-- Results without progress have ended the loop exactly if one of them is for
    another device, or if the results since the last progress are silent. -/
theorem gaveUp_iff {d : Device} {send rev : List Byte} {pre msgs : List (Option (List Byte))}
    {s : State} (h : process_DEV_USER_RUPDATA d send rev pre = .running s)
    (hmsgs : ∀ msg ∈ msgs, NoProgress s msg) :
    (∃ s', process_DEV_USER_RUPDATA d send rev (pre ++ msgs) = .returned (-1) s') ↔
      Silent ((start d send rev).idle (TcmdInfo.ofBytes (rev.drop sizeofStPackCmd)) [] pre ++
        msgs) ∨ ∃ msg ∈ msgs, Foreign s msg := by
  have hreq := acceptsRequest_of_running h
  rw [process_eq_recvLoop hreq] at h ⊢
  obtain ⟨herr, hno⟩ := err_of_running [] h rfl id
  rw [recvLoop_append h, recvLoop_gaveUp_iff _ hmsgs, ← exhausts_zero_iff, exhausts_append,
    ← herr]
  simp only [hno, false_or]

/-- A request for four bytes, and no message. -/
theorem gaveUp_four : ∃ s', process_DEV_USER_RUPDATA (exampleDevice fun _ => 0xFF)
    (List.replicate 1024 0) (exampleRequest 4) ([] ++ List.replicate 7 none) =
      .returned (-1) s' := by
  have hrun : process_DEV_USER_RUPDATA (exampleDevice fun _ => 0xFF) (List.replicate 1024 0)
      (exampleRequest 4) [] = .running (start (exampleDevice fun _ => 0xFF)
        (List.replicate 1024 0) (exampleRequest 4)) :=
    process_eq_recvLoop (by decide +kernel) []
  refine (gaveUp_iff hrun fun msg hmsg => ?_).2 (Or.inl (Or.inl (List.prefix_refl _)))
  rw [List.eq_of_mem_replicate hmsg]
  trivial

/-- Seven timeouts in a row end the loop, whatever was before. -/
theorem seven_timeouts {d : Device} {send rev : List Byte} {pre : List (Option (List Byte))}
    {s : State} (h : process_DEV_USER_RUPDATA d send rev pre = .running s) :
    ∃ s', process_DEV_USER_RUPDATA d send rev (pre ++ List.replicate 7 none) =
      .returned (-1) s' := by
  have hreq := acceptsRequest_of_running h
  rw [process_eq_recvLoop hreq] at h ⊢
  obtain ⟨herr, hno⟩ := err_of_running [] h rfl id
  rw [recvLoop_append h, recvLoop_gaveUp_iff]
  · left
    by_cases hle : s.err ≤ 6
    · rw [exhausts_iff hle]
      left
      refine ⟨List.replicate s.err none, ?_⟩
      rw [List.replicate_append_replicate]
      congr 1
      omega
    · exact Or.inl (show 5 < s.err by omega)
  · intro msg hmsg
    rw [List.eq_of_mem_replicate hmsg]
    trivial

/-- No number of results without progress is enough: a chunk with a wrong offset
    can be sent again and again. -/
theorem no_bound : ¬ ∃ K, ∀ (d : Device) (send rev : List Byte)
    (pre msgs : List (Option (List Byte))) (s : State),
    process_DEV_USER_RUPDATA d send rev pre = .running s → (∀ msg ∈ msgs, NoProgress s msg) →
    msgs.length = K →
    ∃ s', process_DEV_USER_RUPDATA d send rev (pre ++ msgs) = .returned (-1) s' := by
  rintro ⟨K, h⟩
  have hreq : AcceptsRequest (exampleRequest 4) := by decide +kernel
  have hrun : ∀ msgs, process_DEV_USER_RUPDATA (exampleDevice fun _ => 0xFF)
      (List.replicate 1024 0) (exampleRequest 4) msgs = _ := process_eq_recvLoop hreq
  have hno : NoProgress (start (exampleDevice fun _ => 0xFF) (List.replicate 1024 0)
      (exampleRequest 4)) (some (exampleMessage 1 [])) := by
    decide +kernel
  have hown : (StPackCmd.ofBytes (exampleMessage 1 [])).id =
      setupAppId (exampleDevice fun _ => 0xFF).sysSetup := by
    decide +kernel
  have hmsgs : ∀ msg ∈ List.replicate K (some (exampleMessage 1 [])), NoProgress
      (start (exampleDevice fun _ => 0xFF) (List.replicate 1024 0) (exampleRequest 4)) msg := by
    intro msg hmsg
    rw [List.eq_of_mem_replicate hmsg]
    exact hno
  have hend := h _ _ _ [] _ _ (hrun []) hmsgs (List.length_replicate ..)
  rw [List.nil_append, hrun, recvLoop_gaveUp_iff _ hmsgs] at hend
  rcases hend with hend | ⟨msg, hmsg, hforeign⟩
  · exact not_exhausts_messages _ _ _ hend
  · obtain ⟨rev, rfl, hid⟩ := hforeign
    obtain rfl := Option.some.inj (List.eq_of_mem_replicate hmsg)
    exact hid hown

end Abox.Update
