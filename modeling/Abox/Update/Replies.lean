import Abox.Server.Send
import Abox.Update.Bounds

/-!
# The replies of a remote update

`process_DEV_USER_RUPDATA` sends `packcmd` and `cmd_11` from five places. The
header is also what each message is decoded to, so that a reply to a message
can have the length of that message.

* `replies_wellFormed_iff`: exactly when all replies of a call are well formed.
* `sent_eq_replies`: the replies are all that is sent.
* `short_reply`: the reply to a last chunk of four bytes is too short.
-/

namespace Abox.Update

open Nor Flash Server

/-! ## Specification -/

/-- A header with the length of the payload, the payload, which is `cmd_11`, and
    the checksum of both. -/
def WellFormed (cmd11 : TcmdInfo) (frame : List Byte) : Prop :=
  ∃ packcmd : StPackCmd, packcmd.len.toNat = cmd11.toBytes.length ∧
    frame = packcmdBytes packcmd ++ cmd11.toBytes ++
      crcBytes (ModbusCrc16 (packcmdBytes packcmd ++ cmd11.toBytes))

/-- What was sent between two states, with the `cmd_11` it was sent from. -/
def newReplies (s s' : State) : List (TcmdInfo × List Byte) :=
  (s'.sent.drop s.sent.length).map fun frame => (s'.cmd11, frame)

/-- The replies behind the receiving loop. -/
def State.finishReplies (s : State) (cmd12 : TcmdInfo) (ret : ℤ) : List (TcmdInfo × List Byte) :=
  match s.finish cmd12 ret with
  | .returned _ s' => newReplies s s'
  | _ => []

/-- The replies of a pass, and of what follows if it ends the loop. -/
def State.passReplies (s : State) (cmd12 : TcmdInfo) (msg : Option (List Byte)) :
    List (TcmdInfo × List Byte) :=
  match s.recvPass cmd12 msg with
  | .again s' => newReplies s s'
  | .ended ret s' => newReplies s s' ++ s'.finishReplies cmd12 ret
  | .hang => []

/-- The replies of the receiving loop. -/
def State.replies (s : State) (cmd12 : TcmdInfo) (msgs : List (Option (List Byte))) :
    List (TcmdInfo × List Byte) :=
  (s.passes cmd12 msgs).flatMap fun x => x.1.passReplies cmd12 x.2

/-- The state a request is answered in that is not taken. -/
def refused (d : Device) (send rev : List Byte) : State :=
  let cmd12 := TcmdInfo.ofBytes (rev.drop sizeofStPackCmd)
  let s : State :=
    { d with
      atStatus := .atSerUpdata
      startAddr := BitVec.ofNat 32 updataAppAddr
      packcmd := replyHeader (setupAppId d.sysSetup)
      cmd11 := { cmd12 with flen := 0xffffffff }
      err := 0
      send := send
      sent := [] }
  s.sendPack

/-- The replies of a call of `process_DEV_USER_RUPDATA`. -/
def replies (d : Device) (send rev : List Byte) (msgs : List (Option (List Byte))) :
    List (TcmdInfo × List Byte) :=
  if AcceptsRequest rev then
    let s := start d send rev
    s.sent.map (fun frame => (s.cmd11, frame)) ++
      s.replies (TcmdInfo.ofBytes (rev.drop sizeofStPackCmd)) msgs
  else
    let s := refused d send rev
    s.sent.map fun frame => (s.cmd11, frame)

/-- A message has the length of a reply, or it is taken for a chunk that is not
    the last one or that is never written. -/
def ReplyOk (cmd12 : TcmdInfo) (s : State) (msg : Option (List Byte)) : Prop :=
  ∀ rev, msg = some rev → (StPackCmd.ofBytes rev).len = 16 ∨
    s.Accepts rev ∧ (Stalls s.startAddr.toNat (chunkLen rev).toNat ∨
      s.cmd11.flen + chunkLen rev ≠ cmd12.flen)

/-! ## Frames -/

theorem TcmdInfo.length_toBytes (c : TcmdInfo) : c.toBytes.length = 16 := by
  simp [TcmdInfo.toBytes, Layout.word.length_encode]
  rfl

theorem WellFormed.length {cmd11 : TcmdInfo} {frame : List Byte} (h : WellFormed cmd11 frame) :
    frame.length = 26 := by
  obtain ⟨packcmd, -, rfl⟩ := h
  rw [List.length_append, List.length_append, TcmdInfo.length_toBytes, length_packcmdBytes]
  rfl

/-- A receiver finds the length of a well-formed frame in its header, and the
    checksum right. -/
theorem WellFormed.parsed {cmd11 : TcmdInfo} {frame : List Byte} (h : WellFormed cmd11 frame) :
    (StPackCmd.ofBytes frame).frameLen = frame.length ∧ ModbusCrc16 frame = 0 := by
  rw [h.length]
  obtain ⟨packcmd, hlen, rfl⟩ := h
  rw [TcmdInfo.length_toBytes] at hlen
  refine ⟨?_, ModbusCrc16_append _⟩
  rw [List.append_assoc, ofBytes_packcmdBytes, StPackCmd.frameLen]
  bv_omega

/-- The first 24 bytes of the buffer are sent with their checksum. -/
theorem g3_send_pack_prefix {s : State} {bs : List Byte} (hlen : bs.length = 24)
    (hbs : bs <+: s.send) (hsend : s.send.length = buffLen) :
    (s.g3_send_pack 24).sent = s.sent ++ [bs ++ crcBytes (ModbusCrc16 bs)] ∧
      bs <+: (s.g3_send_pack 24).send ∧ (s.g3_send_pack 24).send.length = buffLen := by
  obtain ⟨rest, hrest⟩ := hbs
  have hrestLen : rest.length = 1000 := by
    have hlen' := congrArg List.length hrest
    rw [List.length_append, hlen, hsend] at hlen'
    have hbuffLen : buffLen = 1024 := rfl
    omega
  obtain ⟨x, rest, rfl⟩ := List.exists_cons_of_length_eq_add_one hrestLen
  rw [List.length_cons] at hrestLen
  obtain ⟨y, rest, rfl⟩ := List.exists_cons_of_length_eq_add_one (Nat.succ.inj hrestLen)
  have hread : readN s.send 24 = bs := by
    rw [← hrest, ← hlen]
    exact readN_of_prefix (List.prefix_append _ _)
  have hbuf : (s.g3_send_pack 24).send = bs ++ crcBytes (ModbusCrc16 bs) ++ rest := by
    show (s.send.set 24 ((ModbusCrc16 (readN s.send 24)).extractLsb' 0 8)).set 25
      ((ModbusCrc16 (readN s.send 24)).extractLsb' 8 8) = _
    rw [hread, ← hrest, List.set_append_right _ _ (by omega), List.set_append_right _ _ (by omega),
      hlen, List.append_assoc]
    rfl
  have hnew : readN (s.g3_send_pack 24).send 26 = bs ++ crcBytes (ModbusCrc16 bs) := by
    rw [hbuf, show 26 = (bs ++ crcBytes (ModbusCrc16 bs)).length by
      rw [List.length_append, hlen]; rfl]
    exact readN_of_prefix (List.prefix_append _ _)
  refine ⟨?_, ?_, ?_⟩
  · show s.sent ++ [readN (s.g3_send_pack 24).send 26] = _
    rw [hnew]
  · rw [hbuf, List.append_assoc]
    exact List.prefix_append _ _
  · show ((s.send.set _ _).set _ _).length = _
    rw [List.length_set, List.length_set, hsend]

/-- Any other length is not that of a reply. -/
theorem g3_send_pack_length (s : State) {len : BitVec 16} (h : len ≠ 16) :
    ∃ frame, (s.g3_send_pack (len + 8)).sent = s.sent ++ [frame] ∧
      ∀ cmd11, ¬ WellFormed cmd11 frame := by
  refine ⟨_, rfl, fun cmd11 hwf => ?_⟩
  have hlen := hwf.length
  rw [length_readN] at hlen
  bv_omega

/-! ## One pass -/

/-- The buffer starts with a header and `cmd_11`, and `packcmd` has the length of
    a reply. -/
structure Ready (s : State) : Prop where
  size : s.send.length = buffLen
  len : s.packcmd.len = 16
  head : ∃ packcmd : StPackCmd,
    packcmd.len = 16 ∧ packcmdBytes packcmd ++ s.cmd11.toBytes <+: s.send

/-- All replies between two states are well formed. -/
def Replied (s s' : State) : Prop := ∀ r ∈ newReplies s s', WellFormed r.1 r.2

/-- The replies between two states where only one frame was sent. -/
theorem newReplies_one {s s' : State} {frame : List Byte} (h : s'.sent = s.sent ++ [frame]) :
    newReplies s s' = [(s'.cmd11, frame)] := by
  rw [newReplies, h, List.drop_left]
  rfl

theorem newReplies_none {s s' : State} (h : s'.sent = s.sent) : newReplies s s' = [] := by
  rw [newReplies, h, List.drop_length]
  rfl

/-- What stands in the buffer is sent. -/
theorem Ready.resend {s : State} (h : Ready s) :
    Replied s (s.g3_send_pack (s.packcmd.len + 8)) ∧
      Ready (s.g3_send_pack (s.packcmd.len + 8)) := by
  obtain ⟨packcmd, hlen, hhead⟩ := h.head
  obtain ⟨hsent, hpre, hsize⟩ := g3_send_pack_prefix (by
    rw [List.length_append, TcmdInfo.length_toBytes, length_packcmdBytes]; rfl) hhead h.size
  rw [h.len, show (16 + 8 : BitVec 16) = 24 from rfl]
  refine ⟨?_, hsize, h.len, packcmd, hlen, hpre⟩
  rw [Replied, newReplies_one hsent]
  intro r hr
  obtain rfl := List.mem_singleton.1 hr
  refine ⟨packcmd, ?_, rfl⟩
  rw [hlen, TcmdInfo.length_toBytes]
  rfl

/-- With the length of a reply in `packcmd` a new reply can be sent. -/
theorem ready_pack {s : State} (hsize : s.send.length = buffLen) (hlen : s.packcmd.len = 16) :
    Ready s.pack := by
  refine ⟨?_, hlen, s.packcmd, hlen, List.prefix_append _ _⟩
  show (packcmdBytes s.packcmd ++ s.cmd11.toBytes ++ s.send.drop 24).length = _
  rw [List.length_append, List.length_append, TcmdInfo.length_toBytes, length_packcmdBytes,
    List.length_drop, hsize]
  rfl

theorem Replied.of_sendPack {s : State} (hsize : s.send.length = buffLen)
    (hlen : s.packcmd.len = 16) : Replied s s.sendPack ∧ Ready s.sendPack :=
  (ready_pack hsize hlen).resend

/-- With any other length the reply is malformed. -/
theorem not_replied_resend {s : State} (h : s.packcmd.len ≠ 16) :
    ¬ Replied s (s.g3_send_pack (s.packcmd.len + 8)) := by
  obtain ⟨frame, hsent, hbad⟩ := g3_send_pack_length s h
  intro hall
  rw [Replied, newReplies_one hsent] at hall
  exact hbad _ (hall _ List.mem_cons_self)

theorem not_replied_sendPack {s : State} (h : s.packcmd.len ≠ 16) : ¬ Replied s s.sendPack :=
  not_replied_resend (s := s.pack) h

/-- Behind the loop nothing is sent after a success. -/
theorem finishReplies_one (s : State) (cmd12 : TcmdInfo) : s.finishReplies cmd12 1 = [] := by
  unfold State.finishReplies
  cases hfin : s.finish cmd12 1 with
  | returned ret s' =>
    exact newReplies_none ((finish_returned hfin).2.sent_one rfl)
  | running s' => rfl
  | hang => rfl

/-- A new reply is well formed exactly if it has the right length. -/
theorem replied_sendPack_iff {s : State} (hsize : s.send.length = buffLen) :
    Replied s s.sendPack ↔ s.packcmd.len = 16 := by
  constructor
  · intro h
    by_contra hlen
    exact not_replied_sendPack hlen h
  · intro hlen
    exact (Replied.of_sendPack hsize hlen).1

/-- After a failure there is one reply, with the length that is in `packcmd`. -/
theorem finishReplies_failed {s : State} (cmd12 : TcmdInfo) (hsize : s.send.length = buffLen) :
    (∀ r ∈ s.finishReplies cmd12 (-1), WellFormed r.1 r.2) ↔ s.packcmd.len = 16 := by
  let t : State := { s with atStatus := .atFree, cmd11 := { s.cmd11 with flen := 0xffffffff } }
  have hsize' : t.send.length = buffLen := hsize
  show Replied t t.sendPack ↔ t.packcmd.len = 16
  exact replied_sendPack_iff hsize'

/-- After a failure before which nothing was sent. -/
theorem passReplies_failed {s t : State} {cmd12 : TcmdInfo} {msg : Option (List Byte)}
    (h : s.recvPass cmd12 msg = .ended (-1) t) (hsent : t.sent = s.sent)
    (hsize : t.send.length = buffLen) :
    (∀ r ∈ s.passReplies cmd12 msg, WellFormed r.1 r.2) ↔ t.packcmd.len = 16 := by
  unfold State.passReplies
  rw [h]
  show (∀ r ∈ newReplies s t ++ t.finishReplies cmd12 (-1), WellFormed r.1 r.2) ↔ _
  rw [newReplies_none hsent, List.nil_append]
  exact finishReplies_failed cmd12 hsize

/-- The replies of a timeout, and of what is answered like one. -/
theorem timeout_replies {s s1 : State} {cmd12 : TcmdInfo} {msg : Option (List Byte)}
    (h : s.recvPass cmd12 msg = s1.timeout) (hsent : s1.sent = s.sent)
    (hsize : s1.send.length = buffLen) (hready : s1.packcmd.len = 16 → Ready s1) :
    ((∀ r ∈ s.passReplies cmd12 msg, WellFormed r.1 r.2) ↔ s1.packcmd.len = 16) ∧
      ∀ t, s.recvPass cmd12 msg = .again t → s1.packcmd.len = 16 → Ready t := by
  rw [State.timeout] at h
  by_cases herr : 5 < s1.err
  · rw [if_pos herr] at h
    refine ⟨passReplies_failed h hsent hsize, fun t ht => ?_⟩
    rw [h] at ht
    cases ht
  · rw [if_neg herr] at h
    refine ⟨?_, fun t ht hlen => ?_⟩
    · rw [State.passReplies, h]
      show (∀ r ∈ newReplies s (s1.g3_send_pack (s1.packcmd.len + 8)), WellFormed r.1 r.2) ↔ _
      rw [newReplies, ← hsent]
      constructor
      · intro hall
        by_contra hlen
        exact not_replied_resend hlen hall
      · exact fun hlen => (hready hlen).resend.1
    · rw [h] at ht
      cases ht
      obtain ⟨hsize', hlen', hhead⟩ := (hready hlen).resend.2
      exact ⟨hsize', hlen', hhead⟩

/-- The replies to the last chunk: the acknowledgement of the whole file, or the reply
    to a failure. -/
theorem last_replies {s s1 : State} {cmd12 : TcmdInfo} {msg : Option (List Byte)}
    (h : s.recvPass cmd12 msg = s1.written cmd12) (hsent : s1.sent = s.sent)
    (hsize : s1.send.length = buffLen) (hend : s1.cmd11.flen = cmd12.flen) :
    ((∀ r ∈ s.passReplies cmd12 msg, WellFormed r.1 r.2) ↔ s1.packcmd.len = 16) ∧
      ∀ t, s.recvPass cmd12 msg ≠ .again t := by
  let s2 : State := { s1 with
    mem := programs s1.mem updataAppAddr (Layout.word.encode cmd12.flen) }
  have hsize' : s2.send.length = buffLen := hsize
  rw [written_of_eq hend] at h
  dsimp only at h
  split_ifs at h with hcrc
  · refine ⟨?_, fun t ht => by rw [h] at ht; cases ht⟩
    rw [State.passReplies, h]
    show (∀ r ∈ newReplies s s2.sendPack ++ s2.sendPack.finishReplies cmd12 1,
      WellFormed r.1 r.2) ↔ s2.packcmd.len = 16
    rw [finishReplies_one, List.append_nil, newReplies, ← hsent]
    exact replied_sendPack_iff hsize'
  · refine ⟨?_, fun t ht => by rw [h] at ht; cases ht⟩
    exact passReplies_failed (t := s2) h hsent hsize'

/-- The reply to a chunk that is not the last one. -/
theorem next_replies {s s1 : State} {cmd12 : TcmdInfo} {msg : Option (List Byte)}
    (h : s.recvPass cmd12 msg = s1.written cmd12) (hsent : s1.sent = s.sent)
    (hsize : s1.send.length = buffLen) (hlast : s1.cmd11.flen ≠ cmd12.flen) :
    (∀ r ∈ s.passReplies cmd12 msg, WellFormed r.1 r.2) ∧
      ∀ t, s.recvPass cmd12 msg = .again t → Ready t := by
  let s2 : State := { s1 with packcmd := replyHeader (setupAppId s1.sysSetup) }
  obtain ⟨hreplied, hready⟩ := Replied.of_sendPack (s := s2) hsize rfl
  rw [written_of_ne hlast] at h
  refine ⟨?_, fun t ht => ?_⟩
  · rw [State.passReplies, h]
    show ∀ r ∈ newReplies s s2.sendPack, WellFormed r.1 r.2
    rw [newReplies, ← hsent]
    exact hreplied
  · rw [h] at ht
    cases ht
    exact hready

/-- The replies to an accepted chunk. -/
theorem chunk_replies {s : State} (hs : Ready s) (cmd12 : TcmdInfo) {rev : List Byte}
    (h : s.Accepts rev) :
    ((∀ r ∈ s.passReplies cmd12 (some rev), WellFormed r.1 r.2) ↔
        (StPackCmd.ofBytes rev).len = 16 ∨ Stalls s.startAddr.toNat (chunkLen rev).toNat ∨
          s.cmd11.flen + chunkLen rev ≠ cmd12.flen) ∧
      ∀ t, s.recvPass cmd12 (some rev) = .again t → Ready t := by
  rw [← length_chunk, ← writeByteToFlash_none_iff (m := s.mem)]
  have hpass := recvPass_chunk cmd12 h.1 h.2
  cases hw : writeByteToFlash s.mem s.startAddr.toNat (chunk rev) with
  | none =>
    rw [hw] at hpass
    rw [State.passReplies, hpass]
    exact ⟨iff_of_true (fun r hr => by cases hr) (Or.inr (Or.inl rfl)), fun t ht => by cases ht⟩
  | some p =>
    rw [hw] at hpass
    let s1 : State := s.advance rev p.2
    have hlen : s1.cmd11.flen = s.cmd11.flen + chunkLen rev := rfl
    simp only [reduceCtorEq, false_or]
    by_cases hend : s1.cmd11.flen = cmd12.flen
    · obtain ⟨hiff, hno⟩ := last_replies hpass rfl hs.size hend
      rw [or_iff_left (not_not.2 (hlen.symm.trans hend))]
      exact ⟨hiff, fun t ht => absurd ht (hno t)⟩
    · obtain ⟨hreplied, hready⟩ := next_replies hpass rfl hs.size hend
      exact ⟨iff_of_true hreplied (Or.inr fun hcmd => hend (hlen.trans hcmd)), hready⟩

/-- All replies of a pass are well formed exactly if it meets `ReplyOk`, and then
    the next pass can resend the reply. -/
theorem pass_replies (cmd12 : TcmdInfo) {s : State} (hs : Ready s) (msg : Option (List Byte)) :
    ((∀ r ∈ s.passReplies cmd12 msg, WellFormed r.1 r.2) ↔ ReplyOk cmd12 s msg) ∧
      ∀ t, s.recvPass cmd12 msg = .again t → ReplyOk cmd12 s msg → Ready t := by
  cases msg with
  | none =>
    have hpass : s.recvPass cmd12 none = s.timeout := rfl
    obtain ⟨hiff, hready⟩ := timeout_replies hpass rfl hs.size fun _ => hs
    refine ⟨iff_of_true (hiff.2 hs.len) ?_, fun t ht _ => hready t ht hs.len⟩
    intro rev h
    cases h
  | some rev =>
    have hone : ReplyOk cmd12 s (some rev) ↔ (StPackCmd.ofBytes rev).len = 16 ∨
        s.Accepts rev ∧ (Stalls s.startAddr.toNat (chunkLen rev).toNat ∨
          s.cmd11.flen + chunkLen rev ≠ cmd12.flen) := by
      constructor
      · exact fun h => h rev rfl
      · rintro h r hr
        obtain rfl := Option.some.inj hr
        exact h
    rw [hone]
    by_cases hacc : s.Accepts rev
    · obtain ⟨hiff, hready⟩ := chunk_replies hs cmd12 hacc
      rw [and_iff_right hacc]
      exact ⟨hiff, fun t ht _ => hready t ht⟩
    · rw [show (s.Accepts rev ∧ _ ↔ False) from iff_of_false (fun h => hacc h.1) id, or_false]
      let s1 : State := { s with packcmd := StPackCmd.ofBytes rev, err := 0 }
      by_cases h11 : IsTcmd11 (setupAppId s.sysSetup) rev
      · have hoff : u32At rev 8 ≠ s.cmd11.flen := fun hoff => hacc ⟨h11, hoff⟩
        have hpass : s.recvPass cmd12 (some rev) = s1.timeout := recvPass_mismatch cmd12 h11 hoff
        exact timeout_replies hpass rfl hs.size fun hlen => ⟨hs.size, hlen, hs.head⟩
      · have hpass := recvPass_other cmd12 h11
        refine ⟨passReplies_failed hpass rfl hs.size, fun t ht => ?_⟩
        rw [hpass] at ht
        cases ht

/-! ## Runs -/

theorem recvLoop_replies_iff {cmd12 : TcmdInfo} {s : State} (hs : Ready s)
    (msgs : List (Option (List Byte))) :
    (∀ r ∈ s.replies cmd12 msgs, WellFormed r.1 r.2) ↔
      ∀ x ∈ s.passes cmd12 msgs, ReplyOk cmd12 x.1 x.2 := by
  have hpasses : (∀ x ∈ s.passes cmd12 msgs, ∀ r ∈ x.1.passReplies cmd12 x.2,
      WellFormed r.1 r.2) ↔ ∀ x ∈ s.passes cmd12 msgs, ReplyOk cmd12 x.1 x.2 :=
    passes_forall_iff (Q := ReplyOk cmd12) (fun hs msg => (pass_replies cmd12 hs msg).1)
      (fun hs hok hpass => (pass_replies cmd12 hs _).2 _ hpass hok) hs msgs
  rw [← hpasses, State.replies]
  simp only [List.mem_flatMap]
  exact ⟨fun h x hx r hr => h r ⟨x, hx, hr⟩, fun h r ⟨x, hx, hr⟩ => h x hx r hr⟩

/-! ## Calls -/

theorem process_of_refused {d : Device} {send rev : List Byte} (h : ¬ AcceptsRequest rev)
    (msgs : List (Option (List Byte))) : process_DEV_USER_RUPDATA d send rev msgs =
      .returned 0 { refused d send rev with
        mem := clearSaveDataSector (refused d send rev).mem } := by
  unfold process_DEV_USER_RUPDATA
  dsimp only
  rw [if_pos (not_not.1 h)]
  rfl

/-- A first reply, with the header of the device. -/
theorem first_replied {s : State} (hsize : s.send.length = buffLen) (hlen : s.packcmd.len = 16)
    (hsent : s.sent = []) :
    (∀ r ∈ s.sendPack.sent.map (fun frame => (s.sendPack.cmd11, frame)), WellFormed r.1 r.2) ∧
      Ready s.sendPack := by
  obtain ⟨hreplied, hready⟩ := Replied.of_sendPack hsize hlen
  rw [Replied, newReplies, hsent] at hreplied
  exact ⟨hreplied, hready⟩

theorem start_replied (d : Device) (rev : List Byte) {send : List Byte}
    (h : send.length = buffLen) :
    (∀ r ∈ (start d send rev).sent.map (fun frame => ((start d send rev).cmd11, frame)),
      WellFormed r.1 r.2) ∧ Ready (start d send rev) := by
  unfold start
  exact first_replied h rfl rfl

theorem refused_replied (d : Device) (rev : List Byte) {send : List Byte}
    (h : send.length = buffLen) :
    ∀ r ∈ (refused d send rev).sent.map (fun frame => ((refused d send rev).cmd11, frame)),
      WellFormed r.1 r.2 := by
  unfold refused
  exact (first_replied h rfl rfl).1

/-- All replies of a call are well formed exactly if, when the request is taken,
    every message has the length of a reply or is taken for a chunk that is not
    the last one or is never written. -/
theorem replies_wellFormed_iff {d : Device} {send rev : List Byte}
    (hsend : send.length = buffLen) (msgs : List (Option (List Byte))) :
    let cmd12 := TcmdInfo.ofBytes (rev.drop sizeofStPackCmd)
    (∀ r ∈ replies d send rev msgs, WellFormed r.1 r.2) ↔
      (AcceptsRequest rev →
        ∀ x ∈ (start d send rev).passes cmd12 msgs, ReplyOk cmd12 x.1 x.2) := by
  intro cmd12
  unfold replies
  by_cases hreq : AcceptsRequest rev
  · rw [if_pos hreq, forall_prop_of_true hreq]
    obtain ⟨hfirst, hready⟩ := start_replied d rev hsend
    rw [← recvLoop_replies_iff hready]
    simp only [List.mem_append, or_imp, forall_and]
    exact and_iff_right hfirst
  · rw [if_neg hreq]
    refine iff_of_true ?_ fun h => absurd h hreq
    exact refused_replied d rev hsend

/-- A request for four bytes, and a timeout. -/
theorem replies_four : (List.replicate 1024 (0 : Byte)).length = buffLen ∧
    ∀ r ∈ replies (exampleDevice fun _ => 0xFF) (List.replicate 1024 0) (exampleRequest 4) [none],
      WellFormed r.1 r.2 := by
  refine ⟨List.length_replicate .., ?_⟩
  refine (replies_wellFormed_iff (List.length_replicate ..) _).2 fun _ x hx rev hrev => ?_
  rw [passes_one] at hx
  obtain rfl := List.mem_singleton.1 hx
  cases hrev

/-- The last chunk, of four bytes, is answered with a frame of 18 bytes. -/
theorem short_reply : ∃ r ∈ replies (exampleDevice fun _ => 0xFF) (List.replicate 1024 0)
    (exampleRequest 4) [some (exampleMessage 0 [0xFF, 0xFF, 0xFF, 0xFF])],
    ¬ WellFormed r.1 r.2 := by
  have hlens : (replies (exampleDevice fun _ => 0xFF) (List.replicate 1024 0) (exampleRequest 4)
      [some (exampleMessage 0 [0xFF, 0xFF, 0xFF, 0xFF])]).map (fun r => r.2.length) =
      [26, 18] := by
    decide +kernel
  have hmem : 18 ∈ (replies (exampleDevice fun _ => 0xFF) (List.replicate 1024 0)
      (exampleRequest 4) [some (exampleMessage 0 [0xFF, 0xFF, 0xFF, 0xFF])]).map
      (fun r => r.2.length) := by
    rw [hlens]
    decide
  obtain ⟨r, hr, hlen⟩ := List.mem_map.1 hmem
  refine ⟨r, hr, fun hwf => ?_⟩
  rw [hwf.length] at hlen
  cases hlen

/-! ## All that is sent -/

/-- The state of a call that does not hang. -/
def Result.state : Result → Option State
  | .running s => some s
  | .returned _ s => some s
  | .hang => none

theorem sent_of_newReplies {s t : State} (h : s.sent <+: t.sent) :
    t.sent = s.sent ++ (newReplies s t).map Prod.snd := by
  obtain ⟨rest, hrest⟩ := h
  rw [newReplies, ← hrest, List.drop_left, List.map_map]
  exact congrArg (s.sent ++ ·) (List.map_id rest).symm

theorem finish_sent {s t : State} {cmd12 : TcmdInfo} {ret : ℤ}
    (h : (s.finish cmd12 ret).state = some t) :
    t.sent = s.sent ++ (s.finishReplies cmd12 ret).map Prod.snd := by
  unfold State.finishReplies
  cases hfin : s.finish cmd12 ret with
  | running u => exact absurd hfin (finish_ne_running s cmd12 ret u)
  | returned r u =>
    rw [hfin] at h
    cases h
    exact sent_of_newReplies (finish_returned hfin).2.sent
  | hang =>
    rw [hfin] at h
    cases h

theorem pass_sent {cmd12 : TcmdInfo} {s t : State} {msg : Option (List Byte)}
    (h : (s.recvPass cmd12 msg).state = some t) : s.sent <+: t.sent := by
  have htimeout : ∀ s1 : State, s1.timeout.state = some t → s1.sent <+: t.sent := by
    intro s1 h1
    rw [State.timeout] at h1
    split_ifs at h1
    · cases h1
      exact List.prefix_rfl
    · cases h1
      exact List.prefix_append _ _
  cases msg with
  | none => exact htimeout s h
  | some rev =>
    by_cases h11 : IsTcmd11 (setupAppId s.sysSetup) rev
    · by_cases hoff : u32At rev 8 = s.cmd11.flen
      · rw [recvPass_chunk cmd12 h11 hoff] at h
        cases hw : writeByteToFlash s.mem s.startAddr.toNat (chunk rev) with
        | none =>
          rw [hw] at h
          cases h
        | some p =>
          rw [hw] at h
          change ((s.advance rev p.2).written cmd12).state = some t at h
          by_cases hend : (s.advance rev p.2).cmd11.flen = cmd12.flen
          · rw [written_of_eq hend] at h
            dsimp only at h
            split_ifs at h
            · cases h
              exact List.prefix_append _ _
            · cases h
              exact List.prefix_rfl
          · rw [written_of_ne hend] at h
            cases h
            exact List.prefix_append _ _
      · rw [recvPass_mismatch cmd12 h11 hoff] at h
        have hext := htimeout _ h
        exact hext
    · rw [recvPass_other cmd12 h11] at h
      cases h
      exact List.prefix_rfl

theorem recvLoop_sent {cmd12 : TcmdInfo} {s t : State} {msgs : List (Option (List Byte))}
    (h : (s.recvLoop cmd12 msgs).state = some t) :
    t.sent = s.sent ++ (s.replies cmd12 msgs).map Prod.snd := by
  induction msgs generalizing s with
  | nil =>
    cases h
    exact (List.append_nil _).symm
  | cons msg msgs ih =>
    rw [State.recvLoop] at h
    rw [State.replies, State.passes, List.flatMap_cons, List.map_append, ← List.append_assoc]
    show t.sent = s.sent ++ (s.passReplies cmd12 msg).map Prod.snd ++ _
    rw [State.passReplies]
    cases hpass : s.recvPass cmd12 msg with
    | again u =>
      have hext : s.sent <+: u.sent := pass_sent (by rw [hpass]; rfl)
      rw [hpass] at h
      dsimp only
      rw [← sent_of_newReplies hext]
      exact ih h
    | ended ret u =>
      have hext : s.sent <+: u.sent := pass_sent (by rw [hpass]; rfl)
      rw [hpass] at h
      dsimp only
      rw [List.map_append, ← List.append_assoc, ← sent_of_newReplies hext, finish_sent h]
      exact (List.append_nil _).symm
    | hang =>
      rw [hpass] at h
      cases h

/-- The replies are all that a call sends. -/
theorem sent_eq_replies {d : Device} {send rev : List Byte} {msgs : List (Option (List Byte))}
    {t : State} (h : (process_DEV_USER_RUPDATA d send rev msgs).state = some t) :
    t.sent = (replies d send rev msgs).map Prod.snd := by
  unfold replies
  by_cases hreq : AcceptsRequest rev
  · rw [process_eq_recvLoop hreq] at h
    rw [if_pos hreq, List.map_append, List.map_map, recvLoop_sent h]
    exact congrArg (· ++ _) (List.map_id _).symm
  · rw [process_of_refused hreq] at h
    cases h
    rw [if_neg hreq, List.map_map]
    exact (List.map_id _).symm

end Abox.Update
