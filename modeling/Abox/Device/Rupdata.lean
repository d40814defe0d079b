import Abox.Device.Flash

/-!
# The remote update, one flash operation after the other

`process_DEV_USER_RUPDATA` (`sub-G/exchange.c` lines 371–555) again, as a program
over the state of `Abox.Update.Rupdata` whose operations are those of the flash.

* `process_refines`: with power that lasts it is the function of
  `Abox.Update.Rupdata`; a power failure leaves what `Interrupted` allows.
-/

namespace Abox.Device

open Nor PowerCut Flash Update

/-! ## The program -/

/-- A function of the flash, in the state of the update. -/
def inFlash {α : Type} (c : Prog Mem α) : Prog State α :=
  Prog.zoom (fun s => s.mem) (fun s mem => { s with mem := mem }) c

/-- How a pass of the receiving loop ends: with the next pass, or with a result. -/
inductive PassEnd
  | again
  | ended (ret : ℤ)

/-- The pass from the label `loop` on (lines 506–523). -/
def timeout : Prog State PassEnd := do
  let err ← Prog.get fun s => s.err
  if 5 < err then pure (.ended (-1))
  else
    Prog.record fun s => s.g3_send_pack (s.packcmd.len + 8)
    Prog.record fun s => { s with err := s.err + 1 }
    pure .again

/-- The end of a pass that has written a chunk (lines 457–490). -/
def written (cmd12 : TcmdInfo) : Prog State PassEnd := do
  let flen ← Prog.get fun s => s.cmd11.flen
  if flen = cmd12.flen then
    let _ ← inFlash (writeByteToFlash updataAppAddr (Layout.word.encode flen))
    let ret ← Prog.get fun s => Update.checkFlashFile s.mem
    if ret = .rtEok then
      Prog.record State.sendPack
      pure (.ended 1)
    else pure (.ended (-1))
  else
    Prog.record fun s => { s with packcmd := replyHeader (setupAppId s.sysSetup) }
    Prog.record State.sendPack
    pure .again

/-- A pass that has received `rev` (lines 443–504). -/
def received (cmd12 : TcmdInfo) (rev : List Byte) : Prog State PassEnd := do
  Prog.record fun s => { s with packcmd := StPackCmd.ofBytes rev, err := 0 }
  let s ← Prog.get id
  if s.packcmd.id = setupAppId s.sysSetup ∧ s.packcmd.cmd = 11 then
    if u32At rev 8 = s.cmd11.flen then
      let len : BitVec 32 := s.packcmd.len.signExtend 32 - 4
      let _ ← inFlash (writeByteToFlash s.startAddr.toNat (readN (rev.drop 12) len.toNat))
      Prog.record fun s =>
        { s with
          startAddr := s.startAddr + len
          cmd11 := { s.cmd11 with flen := s.cmd11.flen + len } }
      written cmd12
    else timeout
  else pure (.ended (-1))

/-- One pass of the receiving loop (lines 440–527). -/
def recvPass (cmd12 : TcmdInfo) : Option (List Byte) → Prog State PassEnd
  | none => timeout
  | some rev => received cmd12 rev

/-- What follows the loop (lines 529–552). -/
def finish (cmd12 : TcmdInfo) (ret : ℤ) : Prog State ℤ := do
  Prog.record fun s => { s with atStatus := .atFree }
  if ret = 1 then
    let setup ← Prog.get fun s => s.sysSetup
    if setupVer setup ≠ cmd12.ver then
      inFlash (SaveSetup (setSetupVer setup 0))
      Prog.record fun s => { s with sysSetup := setSetupVer setup 0 }
      pure ret
    else pure ret
  else
    Prog.record fun s => { s with cmd11 := { s.cmd11 with flen := 0xffffffff } }
    Prog.record State.sendPack
    inFlash clearSaveDataSector
    pure ret

/-- The receiving loop; `none`: it waits for a message. -/
def recvLoop (cmd12 : TcmdInfo) : List (Option (List Byte)) → Prog State (Option ℤ)
  | [] => pure none
  | msg :: msgs => do
    match ← recvPass cmd12 msg with
    | .again => recvLoop cmd12 msgs
    | .ended ret => do
      let ret ← finish cmd12 ret
      pure (some ret)

/-- The number of staged bytes the first reply announces (lines 413–430). -/
def resume (cmd12 : TcmdInfo) : Prog Mem (BitVec 32) := do
  let flen ← Prog.get fun m => STMFLASH_ReadWord m updataAppAddr
  if flen = 0xffffffff then pure 0
  else if flen < cmd12.flen then pure flen
  else do
    clearSaveDataSector
    pure 0

/-- The variables of `process_DEV_USER_RUPDATA` at its start. -/
def started (d : Update.Device) (send rev : List Byte) : State :=
  { d with
    atStatus := .atSerUpdata
    startAddr := BitVec.ofNat 32 updataAppAddr
    packcmd := replyHeader (setupAppId d.sysSetup)
    cmd11 := TcmdInfo.ofBytes (rev.drop sizeofStPackCmd)
    err := 0
    send := send
    sent := [] }

/-- `process_DEV_USER_RUPDATA`, from `started` on, with the request in `rev`. -/
def process (rev : List Byte) (msgs : List (Option (List Byte))) : Prog State (Option ℤ) :=
  let cmd12 := TcmdInfo.ofBytes (rev.drop sizeofStPackCmd)
  if cmd12.ver < 300 ∨ 400 < cmd12.ver then do
    Prog.record fun s => { s with cmd11 := { s.cmd11 with flen := 0xffffffff } }
    Prog.record State.sendPack
    inFlash clearSaveDataSector
    pure (some 0)
  else do
    let flen ← inFlash (resume cmd12)
    Prog.record fun s =>
      { s with
        cmd11 := { s.cmd11 with flen := flen }
        startAddr := s.startAddr + 4 + flen }
    Prog.record State.sendPack
    recvLoop cmd12 msgs

/-! ## What a run does -/

/-- The result of a pass, as a partial function. -/
def passResult : Pass → Option (PassEnd × State)
  | .again s => some (.again, s)
  | .ended ret s => some (.ended ret, s)
  | .hang => none

/-- The result of a call. -/
def callResult : Result → Option (Option ℤ × State)
  | .running s => some (none, s)
  | .returned ret s => some (some ret, s)
  | .hang => none

/-- A power failure has left `t` of a change `C` of the flash of `s`. -/
def Left (C : Mem → Mem → Prop) (s t : State) : Prop := C s.mem t.mem

theorem inFlash_refines {α : Type} {c : Prog Mem α} {f : Mem → Option (α × Mem)}
    {C : Mem → Mem → Prop} (h : Refines c f C) :
    Refines (inFlash c) (fun s => (f s.mem).map fun r => (r.1, { s with mem := r.2 }))
      (Left C) := by
  refine (Refines.zoom h).mono (fun _ => rfl) ?_
  rintro s t ⟨u, hu, rfl⟩
  exact hu

theorem timeout_refines :
    Refines timeout (fun s => passResult s.timeout) fun _ _ => False := by
  intro s power
  beta_reduce
  unfold timeout State.timeout
  rw [Prog.get_bind]
  by_cases herr : 5 < s.err
  · rw [if_pos herr, if_pos herr]
    exact ⟨rfl, id⟩
  · rw [if_neg herr, if_neg herr]
    exact ⟨rfl, id⟩

/-- The length word of a program is written behind its last chunk. -/
theorem writeLength (m : Mem) (flen : BitVec 32) :
    Flash.writeByteToFlash m updataAppAddr (Layout.word.encode flen) =
      some (.rtEok, programs m updataAppAddr (Layout.word.encode flen)) := by
  have hfour : (Layout.word.encode flen).length = 4 := Layout.word.length_encode _
  exact writeByteToFlash_eq (List.ne_nil_of_length_eq_add_one hfour) (by decide)
    (by rw [hfour]; decide)

/-- A power failure behind the last chunk leaves a part of the length word. -/
theorem written_refines (cmd12 : TcmdInfo) :
    Refines (written cmd12) (fun s => passResult (s.written cmd12)) fun s t =>
      s.cmd11.flen = cmd12.flen ∧
        WrittenPart updataAppAddr (Layout.word.encode cmd12.flen) s.mem t.mem := by
  intro s power
  beta_reduce
  unfold written
  rw [Prog.get_bind]
  by_cases h : s.cmd11.flen = cmd12.flen
  · rw [if_pos h, written_of_eq h, h]
    have hwrite := (inFlash_refines (writeByteToFlash_refines updataAppAddr
      (Layout.word.encode cmd12.flen)) s power).mono rfl fun _ ht =>
        And.intro (Eq.refl cmd12.flen) ht
    refine Outcome.Follows.bind (g := fun r => passResult
      (if Update.checkFlashFile r.2.mem = .rtEok then .ended 1 r.2.sendPack else .ended (-1) r.2))
      hwrite (fun _ t power' _ => ?_) ?_
    · rw [Prog.get_bind]
      by_cases hret : Update.checkFlashFile t.mem = .rtEok
      · rw [if_pos hret, if_pos hret]
        exact ⟨rfl, id⟩
      · rw [if_neg hret, if_neg hret]
        exact ⟨rfl, id⟩
    · beta_reduce
      rw [writeLength]
      rfl
  · rw [if_neg h, written_of_ne h]
    exact ⟨rfl, id⟩

/-- What a power failure in a pass of the receiving loop leaves: a part of the chunk, or
    the chunk and a part of the length word. -/
inductive PassLeft (cmd12 : TcmdInfo) (s : State) (msg : Option (List Byte)) (t : State) : Prop
  | chunk {rev : List Byte} : msg = some rev → s.Accepts rev →
    WrittenPart s.startAddr.toNat (chunk rev) s.mem t.mem → PassLeft cmd12 s msg t
  | length {rev : List Byte} {e : RtErr} {m : Mem} : msg = some rev → s.Accepts rev →
    Flash.writeByteToFlash s.mem s.startAddr.toNat (Update.chunk rev) = some (e, m) →
    s.cmd11.flen + chunkLen rev = cmd12.flen →
    WrittenPart updataAppAddr (Layout.word.encode cmd12.flen) m t.mem → PassLeft cmd12 s msg t

/-- The state in which a pass looks at the message. -/
def State.looking (s : State) (rev : List Byte) : State :=
  { s with packcmd := StPackCmd.ofBytes rev, err := 0 }

/-- The rest of a pass that has written the chunk of `rev`. -/
def behindChunk (cmd12 : TcmdInfo) (rev : List Byte) : Prog State PassEnd := do
  Prog.record fun s =>
    { s with
      startAddr := s.startAddr + chunkLen rev
      cmd11 := { s.cmd11 with flen := s.cmd11.flen + chunkLen rev } }
  written cmd12

/-- A pass that takes the message for the chunk that comes next. -/
def receivedChunk (cmd12 : TcmdInfo) (startAddr : BitVec 32) (rev : List Byte) :
    Prog State PassEnd := do
  let _ ← inFlash (writeByteToFlash startAddr.toNat (chunk rev))
  behindChunk cmd12 rev

theorem received_eq (cmd12 : TcmdInfo) (rev : List Byte) (s : State) (power : Option ℕ) :
    received cmd12 rev s power =
      (if IsTcmd11 (setupAppId s.sysSetup) rev then
        if u32At rev 8 = s.cmd11.flen then receivedChunk cmd12 s.startAddr rev else timeout
      else pure (.ended (-1)) : Prog State PassEnd) (State.looking s rev) power := rfl

theorem receivedChunk_refines (cmd12 : TcmdInfo) {rev : List Byte} {s : State}
    (h : s.Accepts rev) (power : Option ℕ) :
    (receivedChunk cmd12 s.startAddr rev (State.looking s rev) power).Follows
      (passResult (s.recvPass cmd12 (some rev))) (PassLeft cmd12 s (some rev)) power := by
  unfold receivedChunk
  have hwrite := inFlash_refines (writeByteToFlash_refines s.startAddr.toNat (chunk rev))
    (State.looking s rev) power
  have hleft : ∀ t : State, WrittenPart s.startAddr.toNat (chunk rev) s.mem t.mem →
      PassLeft cmd12 s (some rev) t := fun t ht => .chunk rfl h ht
  refine (hwrite.mono rfl hleft).bind
    (g := fun r => passResult ((s.advance rev r.2.mem).written cmd12))
    (fun e t power' hres => ?_) ?_
  · obtain ⟨r, hm, ht⟩ := Option.map_eq_some_iff.1 hres
    cases ht
    unfold behindChunk
    rw [Prog.record_bind]
    exact (written_refines cmd12 (s.advance rev r.2) power').mono rfl
      fun u hu => .length rfl h hm hu.1 hu.2
  · rw [recvPass_chunk cmd12 h.1 h.2]
    show ((Flash.writeByteToFlash s.mem s.startAddr.toNat (chunk rev)).map _).bind _ = _
    cases Flash.writeByteToFlash s.mem s.startAddr.toNat (chunk rev) <;> rfl

theorem received_refines (cmd12 : TcmdInfo) (rev : List Byte) :
    Refines (received cmd12 rev) (fun s => passResult (s.recvPass cmd12 (some rev)))
      fun s t => PassLeft cmd12 s (some rev) t := by
  intro s power
  beta_reduce
  rw [received_eq]
  by_cases h11 : IsTcmd11 (setupAppId s.sysSetup) rev
  · rw [if_pos h11]
    by_cases hoff : u32At rev 8 = s.cmd11.flen
    · rw [if_pos hoff]
      exact receivedChunk_refines cmd12 ⟨h11, hoff⟩ power
    · rw [if_neg hoff, recvPass_mismatch cmd12 h11 hoff]
      exact (timeout_refines _ power).mono rfl fun _ h => h.elim
  · rw [if_neg h11, recvPass_other cmd12 h11]
    exact ⟨rfl, id⟩

theorem recvPass_refines (cmd12 : TcmdInfo) (msg : Option (List Byte)) :
    Refines (recvPass cmd12 msg) (fun s => passResult (s.recvPass cmd12 msg))
      fun s t => PassLeft cmd12 s msg t := by
  cases msg with
  | none => exact timeout_refines.mono (fun _ => rfl) fun _ _ h => h.elim
  | some rev => exact received_refines cmd12 rev

/-- What a power failure behind the loop leaves of the flash `m`. -/
inductive FinishLeft (ret : ℤ) (m : Mem) (t : State) : Prop
  | saved : ret = 1 → Sector1Only m t.mem → FinishLeft ret m t
  | cleared : ret ≠ 1 → ClearedPart m t.mem → FinishLeft ret m t

/-- The result of what follows the loop, as a partial function. -/
def finishResult : Result → Option (ℤ × State)
  | .running _ => none
  | .returned ret s => some (ret, s)
  | .hang => none

theorem finish_refines (cmd12 : TcmdInfo) (ret : ℤ) :
    Refines (finish cmd12 ret) (fun s => finishResult (s.finish cmd12 ret))
      fun s t => FinishLeft ret s.mem t := by
  intro s power
  beta_reduce
  unfold finish State.finish
  rw [Prog.record_bind]
  dsimp only
  by_cases hret : ret = 1
  · rw [if_pos hret, if_pos hret, Prog.get_bind]
    dsimp only
    by_cases hver : setupVer s.sysSetup ≠ cmd12.ver
    · rw [if_pos hver, if_pos hver]
      have hsave := inFlash_refines (SaveSetup_refines (setSetupVer s.sysSetup 0))
        { s with atStatus := .atFree } power
      refine (hsave.mono rfl fun t ht => FinishLeft.saved hret ht).bind
        (g := fun r => some (ret, { r.2 with sysSetup := setSetupVer s.sysSetup 0 }))
        (fun _ t power' _ => ⟨rfl, id⟩) ?_
      dsimp only
      cases Update.SaveSetup s.mem (setSetupVer s.sysSetup 0) <;> rfl
    · rw [if_neg hver, if_neg hver]
      exact ⟨rfl, id⟩
  · rw [if_neg hret, if_neg hret]
    rw [Prog.record_bind, Prog.record_bind]
    have hclear := inFlash_refines clearSaveDataSector_refines
      (State.sendPack { s with
        atStatus := .atFree, cmd11 := { s.cmd11 with flen := 0xffffffff } }) power
    exact (hclear.mono rfl fun t ht => FinishLeft.cleared hret ht).bind
      (g := fun r => some (ret, r.2)) (fun _ t power' _ => ⟨rfl, id⟩) rfl

/-- What a power failure in the receiving loop leaves. -/
inductive LoopLeft (cmd12 : TcmdInfo) : State → List (Option (List Byte)) → State → Prop
  | pass {s t : State} {msg : Option (List Byte)} {msgs : List (Option (List Byte))} :
    PassLeft cmd12 s msg t → LoopLeft cmd12 s (msg :: msgs) t
  | later {s s' t : State} {msg : Option (List Byte)} {msgs : List (Option (List Byte))} :
    s.recvPass cmd12 msg = .again s' → LoopLeft cmd12 s' msgs t → LoopLeft cmd12 s (msg :: msgs) t
  | finish {s s' t : State} {msg : Option (List Byte)} {msgs : List (Option (List Byte))}
    {ret : ℤ} : s.recvPass cmd12 msg = .ended ret s' → FinishLeft ret s'.mem t →
    LoopLeft cmd12 s (msg :: msgs) t

theorem recvLoop_refines (cmd12 : TcmdInfo) (msgs : List (Option (List Byte))) :
    Refines (recvLoop cmd12 msgs) (fun s => callResult (s.recvLoop cmd12 msgs))
      fun s t => LoopLeft cmd12 s msgs t := by
  induction msgs with
  | nil => exact (Refines.pure none).mono (fun _ => rfl) fun _ _ h => h
  | cons msg msgs ih =>
    intro s power
    beta_reduce
    unfold recvLoop
    have hleft : ∀ t, PassLeft cmd12 s msg t → LoopLeft cmd12 s (msg :: msgs) t :=
      fun t ht => .pass ht
    refine ((recvPass_refines cmd12 msg s power).mono rfl hleft).bind (g := fun r => match r.1 with
      | .again => callResult (r.2.recvLoop cmd12 msgs)
      | .ended ret => callResult (r.2.finish cmd12 ret)) (fun e t power' hres => ?_) ?_
    · beta_reduce at hres
      cases hrecv : s.recvPass cmd12 msg with
      | again s' =>
        rw [hrecv] at hres
        cases hres
        exact (ih t power').mono rfl fun u hu => LoopLeft.later hrecv hu
      | ended ret s' =>
        rw [hrecv] at hres
        cases hres
        have hfinish : ∀ u, FinishLeft ret t.mem u → LoopLeft cmd12 s (msg :: msgs) u :=
          fun u hu => .finish hrecv hu
        refine ((finish_refines cmd12 ret t power').mono rfl hfinish).bind
          (g := fun r => some (some r.1, r.2)) (fun _ _ _ _ => ⟨rfl, id⟩) ?_
        dsimp only
        rcases finish_cases t cmd12 ret with h | ⟨u, h, -⟩
        · rw [h]
          rfl
        · rw [h]
          rfl
      | hang =>
        rw [hrecv] at hres
        cases hres
    · rw [State.recvLoop]
      beta_reduce
      cases s.recvPass cmd12 msg <;> rfl

/-- A power failure before the first message leaves the staging area, or has cleared it. -/
theorem resume_refines (cmd12 : TcmdInfo) :
    Refines (resume cmd12) (fun m => some (Update.resume m cmd12)) ClearedPart := by
  intro m power
  unfold resume Update.resume
  rw [Prog.get_bind]
  dsimp only
  split_ifs
  · exact ⟨rfl, id⟩
  · exact ⟨rfl, id⟩
  · exact (clearSaveDataSector_refines m power).bind (g := fun r => some (0, r.2))
      (fun _ _ _ _ => ⟨rfl, id⟩) rfl

/-- What a power failure in an update leaves. -/
inductive Interrupted (d : Update.Device) (send rev : List Byte)
    (msgs : List (Option (List Byte))) (t : State) : Prop
  | cleared : ClearedPart d.mem t.mem → Interrupted d send rev msgs t
  | loop : AcceptsRequest rev →
    LoopLeft (TcmdInfo.ofBytes (rev.drop sizeofStPackCmd)) (start d send rev) msgs t →
    Interrupted d send rev msgs t

/-- With power that lasts, the program ends or hangs as `process_DEV_USER_RUPDATA`;
    a power failure leaves what `Interrupted` allows. -/
theorem process_refines (d : Update.Device) (send rev : List Byte)
    (msgs : List (Option (List Byte))) (power : Option ℕ) :
    (process rev msgs (started d send rev) power).Follows
      (callResult (process_DEV_USER_RUPDATA d send rev msgs)) (Interrupted d send rev msgs)
      power := by
  have hcleared : ∀ t : State, ClearedPart d.mem t.mem → Interrupted d send rev msgs t :=
    fun t ht => .cleared ht
  unfold process
  dsimp only
  by_cases h : AcceptsRequest rev
  · rw [if_neg h, process_eq_recvLoop h]
    have hresume := (inFlash_refines (resume_refines
      (TcmdInfo.ofBytes (rev.drop sizeofStPackCmd))) (started d send rev) power).mono rfl hcleared
    refine hresume.bind (g := fun r => callResult ((start d send rev).recvLoop
      (TcmdInfo.ofBytes (rev.drop sizeofStPackCmd)) msgs)) (fun flen t power' hres => ?_) rfl
    cases hres
    rw [Prog.record_bind, Prog.record_bind]
    exact (recvLoop_refines _ msgs (start d send rev) power').mono rfl fun u hu => .loop h hu
  · have hver := Decidable.not_not.1 h
    unfold process_DEV_USER_RUPDATA
    dsimp only
    rw [if_pos hver, if_pos hver, Prog.record_bind, Prog.record_bind]
    have hclear := inFlash_refines clearSaveDataSector_refines
      (State.sendPack { started d send rev with
        cmd11 := { (started d send rev).cmd11 with flen := 0xffffffff } }) power
    exact (hclear.mono rfl hcleared).bind (g := fun r => some (some 0, r.2))
      (fun _ t power' _ => ⟨rfl, id⟩) rfl

end Abox.Device
