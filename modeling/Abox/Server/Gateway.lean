import Abox.Radio.Calls
import Abox.Radio.Sizes
import Abox.Server.Scan

/-!
# From the server to the Cboxes

The receiving thread and the radio thread together. `processDataFromServer` takes one
frame after the other off `Eth_Rev_Buff`; one that is for a Cbox goes to
`recvServerData` until it is saved, and while it waits the other threads run.

`Eth_Rev_Buff` is twice as long as `BUFF_LEN`, and a frame of any length that is
complete in it is taken: the test for more than `BUFF_LEN` bytes comes behind the
loop.

* `settled_step`: one frame after the other, `processDataFromServer` is the function
  of `Abox.Server.Tcp`.
* `shortRecords_iff`: exactly when no record is longer than `BUFF_LEN`.
-/

namespace Abox.Server

open Radio Runs

/-! ## Model -/

/-- The outer loop up to the check of a frame (lines 241–262): the length of a
    complete frame, if there is one. -/
def State.pass (s : State) : State × Option ℕ :=
  let s := s.skip
  let tlen := (StPackCmd.ofBytes s.buf).frameLen
  if s.recvLen < tlen then (s, none)
  else if ModbusCrc16 (readN s.buf tlen) = 0 then (s, some tlen)
  else (s, none)

/-- The test behind the loop. -/
def State.flush (s : State) : State :=
  if buffLen < s.recvLen then
    { s with
      buf := List.replicate s.buf.length 0
      recvLen := 0
      offset := s.offset + s.recvLen }
  else s

/-- The bytes of `chunk` are put behind those in the buffer. -/
def State.append (s : State) (chunk : List Byte) : State :=
  { s with
    buf := s.buf.take s.recvLen ++ chunk ++ s.buf.drop (s.recvLen + chunk.length)
    recvLen := s.recvLen + chunk.length }

/-- Where the receiving thread is: in `recv`, at the start of the outer loop, or in
    the loop that saves a frame of `tlen` bytes. -/
inductive Stage
  | recv
  | parse
  | save (tlen : ℕ)
  deriving DecidableEq

/-- The two threads, with `save_err`. -/
structure Gateway where
  eth : State
  stage : Stage
  saveErr : BitVec 16
  subg : Subg

/-- A pass of `ethChat` that receives `chunk`; the outer loop goes on; a call of
    `recvServerData`; or something that happens in another thread. -/
inductive Act
  | recv (chunk : List Byte)
  | parse
  | recvServerData
  | other (e : Event)

/-- Nothing is received, and no Cbox is online. -/
def Gateway.init : Gateway := ⟨State.empty, .recv, 0, Subg.init⟩

section

variable (appId : BitVec 32) (atStatus : ℕ → AtStatus)

/-- The frame of `tlen` bytes leaves the buffer (lines 305–306). -/
def State.take (s : State) (tlen : ℕ) : State :=
  { buf := dataLeft s.buf tlen
    recvLen := s.recvLen - tlen
    offset := s.offset + tlen
    log := s.log ++ [⟨s.offset, target appId (StPackCmd.ofBytes s.buf) (atStatus s.offset),
      readN s.buf tlen⟩] }

/-- The end of the outer loop (lines 304–314). -/
def Gateway.frameDone (g : Gateway) (tlen : ℕ) : Gateway :=
  let eth := g.eth.take appId atStatus tlen
  if sizeofStPackCmd + 2 ≤ eth.recvLen then { g with eth := eth, stage := .parse }
  else { g with eth := eth.flush, stage := .recv }

/-- The outer loop up to the call of `recvServerData`, or to its end. -/
def Gateway.parse (g : Gateway) : Gateway :=
  match g.eth.pass with
  | (eth, none) => { g with eth := eth.flush, stage := .recv }
  | (eth, some tlen) =>
    match target appId (StPackCmd.ofBytes eth.buf) (atStatus eth.offset) with
    | .recvServerData => { g with eth := eth, stage := .save tlen }
    | _ => Gateway.frameDone appId atStatus { g with eth := eth } tlen

/-- One pass of the loop that saves a frame (lines 277–295). -/
def Gateway.save (g : Gateway) (tlen : ℕ) : Gateway :=
  let t := System.trySave ⟨g.subg.aboxInfo, some g.eth.buf, g.saveErr⟩ g.eth.buf
  let g := { g with saveErr := t.saveErr, subg := { g.subg with aboxInfo := t.aboxInfo } }
  match t.saving with
  | some _ => g
  | none => g.frameDone appId atStatus tlen

/-- One step, `none` if it cannot be taken or does not end within `fuel`. Frames come
    from the receiving thread only. -/
def Gateway.step (fuel : ℕ) (g : Gateway) : Act → Option Gateway
  | .recv chunk =>
    match g.stage with
    | .recv =>
      if chunk ≠ [] ∧ chunk.length ≤ sizeofEthRevBuff - g.eth.recvLen then
        some { g with eth := g.eth.append chunk, stage := .parse, saveErr := 0 }
      else none
    | _ => none
  | .parse =>
    match g.stage with
    | .parse => some (g.parse appId atStatus)
    | _ => none
  | .recvServerData =>
    match g.stage with
    | .save tlen => some (g.save appId atStatus tlen)
    | _ => none
  | .other (.recvServerData _) => none
  | .other e => (g.subg.step fuel e).map fun r => { g with subg := r }

def Gateway.Step (g : Gateway) (a : Act) (g' : Gateway) : Prop :=
  ∃ fuel, g.step appId atStatus fuel a = some g'

/-- What the steps do, one case for each. -/
inductive Gateway.Effect (g : Gateway) : Act → Gateway → Prop
  | recv {chunk : List Byte} : g.stage = .recv → chunk ≠ [] →
      chunk.length ≤ sizeofEthRevBuff - g.eth.recvLen →
      Effect g (.recv chunk) { g with eth := g.eth.append chunk, stage := .parse, saveErr := 0 }
  | parse : g.stage = .parse → Effect g .parse (g.parse appId atStatus)
  | recvServerData {tlen : ℕ} : g.stage = .save tlen →
      Effect g .recvServerData (g.save appId atStatus tlen)
  | other {e : Event} {r : Subg} : (∀ recv, e ≠ .recvServerData recv) → g.subg.Step e r →
      Effect g (.other e) { g with subg := r }

variable {appId atStatus}

theorem Gateway.Step.effect {g g' : Gateway} {a : Act} (h : g.Step appId atStatus a g') :
    g.Effect appId atStatus a g' := by
  obtain ⟨fuel, h⟩ := h
  cases a with
  | recv chunk =>
    cases hstage : g.stage with
    | recv =>
      simp only [Gateway.step, hstage, Option.ite_none_right_eq_some, Option.some.injEq] at h
      obtain ⟨⟨hne, hfits⟩, rfl⟩ := h
      exact .recv hstage hne hfits
    | parse => simp [Gateway.step, hstage] at h
    | save tlen => simp [Gateway.step, hstage] at h
  | parse =>
    cases hstage : g.stage with
    | recv => simp [Gateway.step, hstage] at h
    | parse =>
      simp only [Gateway.step, hstage, Option.some.injEq] at h
      subst h
      exact .parse hstage
    | save tlen => simp [Gateway.step, hstage] at h
  | recvServerData =>
    cases hstage : g.stage with
    | recv => simp [Gateway.step, hstage] at h
    | parse => simp [Gateway.step, hstage] at h
    | save tlen =>
      simp only [Gateway.step, hstage, Option.some.injEq] at h
      subst h
      exact .recvServerData hstage
  | other e =>
    have hother : (∀ recv, e ≠ .recvServerData recv) →
        (g.subg.step fuel e).map (fun r => { g with subg := r }) = some g' →
        g.Effect appId atStatus (.other e) g' := by
      intro he hmap
      obtain ⟨r, hr, rfl⟩ := Option.map_eq_some_iff.1 hmap
      exact .other he ⟨fuel, hr⟩
    cases e with
    | recvServerData recv => simp [Gateway.step] at h
    | traverseCbox => exact hother (by simp) h
    | rxData answer => exact hother (by simp) h
    | recvTestPack2 cmd p_dev_id => exact hother (by simp) h
    | removeCbox i => exact hother (by simp) h
    | cleanCbox => exact hother (by simp) h
    | cleanNext => exact hother (by simp) h

/-! ## One frame after the other -/

theorem scan_of_pass_none {s s1 : State} (h : s.pass = (s1, none)) :
    s.scan appId atStatus = s1 := by
  unfold State.pass at h
  rw [State.scan]
  by_cases hlen : s.skip.recvLen < (StPackCmd.ofBytes s.skip.buf).frameLen
  · simp only [if_pos hlen] at h ⊢
    exact (Prod.mk.inj h).1
  · by_cases hcrc : ModbusCrc16 (readN s.skip.buf (StPackCmd.ofBytes s.skip.buf).frameLen) = 0
    · simp [hlen, hcrc] at h
    · simp only [if_neg hlen, if_neg hcrc] at h ⊢
      exact (Prod.mk.inj h).1

theorem scan_of_pass_some {s s1 : State} {tlen : ℕ} (h : s.pass = (s1, some tlen)) :
    s.scan appId atStatus = if sizeofStPackCmd + 2 ≤ (s1.take appId atStatus tlen).recvLen then
      (s1.take appId atStatus tlen).scan appId atStatus else s1.take appId atStatus tlen := by
  unfold State.pass at h
  rw [State.scan]
  by_cases hlen : s.skip.recvLen < (StPackCmd.ofBytes s.skip.buf).frameLen
  · simp [hlen] at h
  · by_cases hcrc : ModbusCrc16 (readN s.skip.buf (StPackCmd.ofBytes s.skip.buf).frameLen) = 0
    · simp only [if_neg hlen, if_pos hcrc, Prod.mk.injEq, Option.some.injEq] at h ⊢
      obtain ⟨rfl, rfl⟩ := h
      rfl
    · rw [if_neg hlen, if_neg hcrc] at h
      cases h

variable (appId atStatus) in
/-- The buffer at the end of the call of `processDataFromServer` under way. -/
def Gateway.settled (g : Gateway) : State :=
  match g.stage with
  | .recv => g.eth
  | .parse => State.flush (g.eth.scan appId atStatus)
  | .save tlen =>
    State.flush (if sizeofStPackCmd + 2 ≤ (g.eth.take appId atStatus tlen).recvLen then
      (g.eth.take appId atStatus tlen).scan appId atStatus else g.eth.take appId atStatus tlen)

theorem settled_frameDone (g : Gateway) (tlen : ℕ) :
    (g.frameDone appId atStatus tlen).settled appId atStatus =
      State.flush (if sizeofStPackCmd + 2 ≤ (g.eth.take appId atStatus tlen).recvLen then
        (g.eth.take appId atStatus tlen).scan appId atStatus
      else g.eth.take appId atStatus tlen) := by
  unfold Gateway.frameDone
  by_cases hrest : sizeofStPackCmd + 2 ≤ (g.eth.take appId atStatus tlen).recvLen
  · simp only [if_pos hrest]
    rfl
  · simp only [if_neg hrest]
    rfl

theorem settled_parse {g : Gateway} (h : g.stage = .parse) :
    (g.parse appId atStatus).settled appId atStatus = g.settled appId atStatus := by
  have hsettled : g.settled appId atStatus = State.flush (g.eth.scan appId atStatus) := by
    unfold Gateway.settled
    rw [h]
  rw [hsettled]
  unfold Gateway.parse
  rcases hpass : g.eth.pass with ⟨eth, - | tlen⟩
  · rw [scan_of_pass_none hpass]
    rfl
  · rw [scan_of_pass_some hpass]
    dsimp only
    split
    · rfl
    · exact settled_frameDone { g with eth := eth } tlen

theorem settled_save {g : Gateway} {tlen : ℕ} (h : g.stage = .save tlen) :
    (g.save appId atStatus tlen).settled appId atStatus = g.settled appId atStatus := by
  have hsettled : g.settled appId atStatus =
      State.flush (if sizeofStPackCmd + 2 ≤ (g.eth.take appId atStatus tlen).recvLen then
        (g.eth.take appId atStatus tlen).scan appId atStatus
      else g.eth.take appId atStatus tlen) := by
    unfold Gateway.settled
    rw [h]
  unfold Gateway.save
  dsimp only
  split
  · unfold Gateway.settled
    rw [h]
  · rw [settled_frameDone, hsettled]

/-- What is received settles as in `Abox.Server.Tcp`, and nothing else changes it. -/
theorem settled_step {g g' : Gateway} {a : Act} (h : g.Step appId atStatus a g') :
    g'.settled appId atStatus = match a with
      | .recv chunk => (g.settled appId atStatus).recv appId atStatus chunk
      | _ => g.settled appId atStatus := by
  cases h.effect with
  | @recv chunk hstage =>
    have hsettled : g.settled appId atStatus = g.eth := by
      unfold Gateway.settled
      rw [hstage]
    show State.flush ((g.eth.append chunk).scan appId atStatus) = _
    rw [hsettled]
    rfl
  | parse hstage => exact settled_parse hstage
  | recvServerData hstage => exact settled_save hstage
  | other => rfl

/-! ## The length of the records -/

theorem frameDone_subg (g : Gateway) (tlen : ℕ) :
    (g.frameDone appId atStatus tlen).subg = g.subg := by
  unfold Gateway.frameDone
  dsimp only
  split_ifs <;> rfl

theorem parse_subg (g : Gateway) : (g.parse appId atStatus).subg = g.subg := by
  unfold Gateway.parse
  split
  · rfl
  · split
    · rfl
    · exact frameDone_subg ..

theorem save_subg (g : Gateway) (tlen : ℕ) : (g.save appId atStatus tlen).subg =
    { g.subg with aboxInfo :=
      (System.trySave ⟨g.subg.aboxInfo, some g.eth.buf, g.saveErr⟩ g.eth.buf).aboxInfo } := by
  unfold Gateway.save
  dsimp only
  split
  · rfl
  · exact frameDone_subg ..

/-- When `recvServerData` is called, the frame in front of `Eth_Rev_Buff` is of at most
    `BUFF_LEN` bytes, or there is no Cbox online for it, or no room. -/
def ShortIfAccepted (g : Gateway) : Act → Prop
  | .recvServerData => Accepted g.subg.aboxInfo g.eth.buf →
      (StPackCmd.ofBytes g.eth.buf).frameLen ≤ buffLen
  | _ => True

/-- A step keeps the records short if and only if it saves no long frame, and then keeps
    short what a poll sends. -/
theorem step_shortRecords_iff {g g' : Gateway} {a : Act} (h : g.Step appId atStatus a g')
    (hg : Sized g.subg) : (ShortRecords g'.subg.aboxInfo ↔ ShortIfAccepted g a) ∧
      (ShortRecords g'.subg.aboxInfo → Sized g'.subg) := by
  cases h.effect with
  | recv => exact ⟨iff_of_true hg.records trivial, fun _ => hg⟩
  | parse =>
    rw [parse_subg]
    exact ⟨iff_of_true hg.records trivial, fun _ => hg⟩
  | @recvServerData tlen =>
    rw [save_subg]
    exact ⟨trySave_sized_iff (s := ⟨g.subg.aboxInfo, some g.eth.buf, g.saveErr⟩) hg.records,
      fun hs => ⟨hs, hg.send⟩⟩
  | other he hstep =>
    have hsized := step_sized hstep he hg
    exact ⟨iff_of_true hsized.records trivial, fun _ => hsized⟩

theorem sized_init : Sized Gateway.init.subg :=
  ⟨fun i hi => absurd hi (Nat.not_lt_zero i), fun p hp => by cases hp⟩

/-- For any bytes received in any chunks that fit `Eth_Rev_Buff`, whatever the other
    threads do: no record is ever longer than `BUFF_LEN` if and only if no call of
    `recvServerData` finds a longer frame, for an online Cbox with room for it; and then
    every copy that `getPoolDate` makes fits into its buffer. -/
theorem shortRecords_iff {tr : List (Act × Gateway)}
    (hp : Path (Gateway.Step appId atStatus) Gateway.init tr) :
    (Always (fun g => ShortRecords g.subg.aboxInfo) Gateway.init tr ↔
      AllSteps ShortIfAccepted Gateway.init tr) ∧
    (AllSteps ShortIfAccepted Gateway.init tr →
      Always (fun g => FitsBuffers g.subg.aboxInfo) Gateway.init tr) := by
  have hsized : Always (fun g => Sized g.subg) Gateway.init tr ↔
      AllSteps ShortIfAccepted Gateway.init tr :=
    hp.always_iff (fun _ => True) (fun g => Sized g.subg) (fun _ _ => trivial)
      (fun _ hg hstep => by
        obtain ⟨hiff, hkeep⟩ := step_shortRecords_iff hstep hg
        exact ⟨fun h => hiff.1 h.records, fun h => hkeep (hiff.2 h)⟩) trivial sized_init
  refine ⟨⟨fun h => hsized.1 ?_, fun h => ?_⟩, fun h => ?_⟩
  · exact hp.always_of_always (fun g => Sized g.subg)
      (fun hg hstep => (step_shortRecords_iff hstep hg).2) sized_init h
  · exact (hsized.2 h).mono fun g hg => hg.records
  · exact (hsized.2 h).mono fun g hg => hg.records.fitsBuffers

end

/-! ## A frame for a Cbox -/

/-- A Cbox with the id 1 has registered. -/
def registered : Gateway :=
  { Gateway.init with
    subg := { Subg.init with aboxInfo := (addCbox initAboxInformation fun _ => 1).2 } }

/-- The frame `f` has been received, and is about to be saved. -/
def saving (f : List Byte) : Gateway :=
  { registered with eth := State.empty.append f, stage := .save f.length }

/-- The Cbox registers, `f` is received, and saved. -/
def frameRun (f : List Byte) : List (Act × Gateway) :=
  [(.other (.recvTestPack2 testCmd2 fun _ => 1), registered),
    (.recv f, { registered with eth := State.empty.append f, stage := .parse }),
    (.parse, saving f),
    (.recvServerData, (saving f).save 0 (fun _ => .atFree) f.length)]

/-- `f` is a frame for the Cbox. -/
structure FrameTo1 (f : List Byte) : Prop where
  head : IsHead (f.getD 0 0)
  id : (StPackCmd.ofBytes f).id = 1
  frameLen : (StPackCmd.ofBytes f).frameLen = f.length
  crc : ModbusCrc16 f = 0
  fits : f.length ≤ sizeofEthRevBuff

theorem append_buf (f : List Byte) :
    (State.empty.append f).buf = f ++ List.replicate (sizeofEthRevBuff - f.length) 0 := by
  show ([] : List Byte) ++ f ++ (List.replicate sizeofEthRevBuff 0).drop (0 + f.length) = _
  rw [List.nil_append, Nat.zero_add, List.drop_replicate]

theorem ofBytes_append_buf (f : List Byte) :
    StPackCmd.ofBytes (State.empty.append f).buf = StPackCmd.ofBytes f := by
  rw [append_buf f, ofBytes_pad]

theorem FrameTo1.pass_eq {f : List Byte} (h : FrameTo1 f) :
    (State.empty.append f).pass = (State.empty.append f, some f.length) := by
  have hrecv : (State.empty.append f).recvLen = f.length := Nat.zero_add _
  have hskip : (State.empty.append f).skip = State.empty.append f := by
    rw [State.skip, if_neg]
    rintro ⟨-, hhead⟩
    rw [append_buf f, getD_pad] at hhead
    exact hhead h.head
  have hread : readN (State.empty.append f).buf f.length = f := by
    rw [append_buf f, readN_pad le_rfl, List.take_length]
  unfold State.pass
  simp only [hskip, ofBytes_append_buf, h.frameLen, hrecv, hread]
  rw [if_neg (lt_irrefl _), if_pos h.crc]

theorem FrameTo1.path {f : List Byte} (h : FrameTo1 f) :
    Path (Gateway.Step 0 fun _ => .atFree) Gateway.init (frameRun f) := by
  have hne : f ≠ [] := by
    rintro rfl
    exact absurd h.crc (by decide)
  have hparse : Gateway.parse 0 (fun _ => .atFree)
      { registered with eth := State.empty.append f, stage := .parse } = saving f := by
    have htarget : target 0 (StPackCmd.ofBytes (State.empty.append f).buf) .atFree =
        .recvServerData := by
      unfold target
      rw [ofBytes_append_buf, h.id]
      rfl
    unfold Gateway.parse
    simp only [h.pass_eq, htarget]
    rfl
  refine .cons ⟨0, rfl⟩ (.cons ⟨0, ?_⟩ (.cons ⟨0, ?_⟩ (.cons ⟨0, rfl⟩ (.nil _))))
  · exact if_pos ⟨hne, h.fits⟩
  · exact congrArg some hparse

theorem FrameTo1.accepted {f : List Byte} (h : FrameTo1 f)
    (hroom : RoomFor (InitDataPool cboxDataPoolSize) f.length) :
    Accepted (saving f).subg.aboxInfo (saving f).eth.buf := by
  have hempty : (queue (registered.subg.aboxInfo.cboxInfo 0)).length < cboxMaxDataList := by decide
  refine ⟨0, ?_, hempty, ?_⟩
  · show registered.subg.aboxInfo.findCbox (StPackCmd.ofBytes (State.empty.append f).buf).id =
      some 0
    rw [ofBytes_append_buf, h.id]
    rfl
  · show RoomFor _ (StPackCmd.ofBytes (State.empty.append f).buf).frameLen
    rw [ofBytes_append_buf, h.frameLen]
    exact hroom

theorem frameTo1_frameTo1 : FrameTo1 frameTo1 where
  head := by decide
  id := by decide
  frameLen := by decide
  crc := by decide +kernel
  fits := by decide

theorem shortRecords_ten : Always (fun g => FitsBuffers g.subg.aboxInfo) Gateway.init
    (frameRun frameTo1) := by
  apply (shortRecords_iff frameTo1_frameTo1.path).2
  refine ⟨trivial, trivial, trivial, fun _ => ?_, trivial⟩
  show (StPackCmd.ofBytes (State.empty.append frameTo1).buf).frameLen ≤ buffLen
  rw [ofBytes_append_buf]
  decide

/-- A frame for the Cbox with 1015 bytes of zeros. -/
def longBytes : List Byte := [0x23, 0x20, 1, 0, 0, 0, 0xF7, 0x03] ++ List.replicate 1015 0

def longFrame : List Byte := longBytes ++ crcBytes (ModbusCrc16 longBytes)

theorem length_longFrame : longFrame.length = 1025 := by
  unfold longFrame longBytes crcBytes
  simp only [List.length_append, List.length_replicate, List.length_cons, List.length_nil]

theorem frameTo1_longFrame : FrameTo1 longFrame where
  head := Or.inl rfl
  id := by rfl
  frameLen := by
    rw [length_longFrame]
    rfl
  crc := ModbusCrc16_append longBytes
  fits := by
    rw [length_longFrame]
    decide

/-- The frame of 1025 bytes is saved. -/
theorem long_frame_saved : ∃ tr, Path (Gateway.Step 0 fun _ => .atFree) Gateway.init tr ∧
    ¬ Always (fun g => ShortRecords g.subg.aboxInfo) Gateway.init tr := by
  refine ⟨frameRun longFrame, frameTo1_longFrame.path, ?_⟩
  rintro ⟨-, -, -, hsaving, hsaved⟩
  have hstep : Gateway.Step 0 (fun _ => .atFree) (saving longFrame) .recvServerData
      ((saving longFrame).save 0 (fun _ => .atFree) longFrame.length) := ⟨0, rfl⟩
  have hsized : Sized (saving longFrame).subg := ⟨hsaving, fun p hp => by cases hp⟩
  have hshort := (step_shortRecords_iff hstep hsized).1.1 hsaved
    (frameTo1_longFrame.accepted (by rw [length_longFrame]; decide))
  have hlen : (StPackCmd.ofBytes (saving longFrame).eth.buf).frameLen = longFrame.length :=
    (congrArg StPackCmd.frameLen (ofBytes_append_buf longFrame)).trans frameTo1_longFrame.frameLen
  rw [hlen, length_longFrame] at hshort
  exact absurd hshort (by decide)

end Abox.Server
