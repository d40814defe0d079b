import Abox.Telnet.Session

/-!
# What comes in and goes out over telnet

The telnet thread, the shell and any number of other threads run in any order.

* `output_delivers`: each byte that has been put into `tx_ringbuffer` is sent once, in blocks
  that each thread sends in the order it took them; while no thread takes a block that another
  one has not sent yet, they are sent in the order they were put in. When no thread is within
  `send_to_client`, nothing is left.
* `input_delivers`: what the shell reads is the text of what has been received, in order, less
  the bytes that found the buffer full. If none did, the shell, which reads single bytes,
  lags behind by one byte for each escaped one: `process_rx` does not release `read_notice`
  for it.
-/

namespace Abox.Telnet

open Runs

/-! ## Acts -/

/-- What an act does, to the contents `q` of `rx_ringbuffer` and `p` of `tx_ringbuffer`
    too. -/
inductive Effect (s : System) (q p : List Byte) : Act → System → List Byte → List Byte → Prop
  | receive {data : Byte} {pc : Pc} {t : TelnetSession} (hpc : s.pc 0 = .outside)
      (hreceived : Received s.session q p data pc t) :
      Effect s q p (.receive data)
        { s with
          session := t
          pc := Function.update s.pc 0 pc
          received := s.received ++ [data]
          text := s.text ++ (datum s.session.state data).map
            fun b => (b, decide (s.session.rxRingbuffer.spaceLen ≠ 0))
          accepted := s.accepted ++
            (answer s.session.state data).take s.session.txRingbuffer.spaceLen }
        (q ++ (datum s.session.state data).take s.session.rxRingbuffer.spaceLen)
        (p ++ (answer s.session.state data).take s.session.txRingbuffer.spaceLen)
  | flush (hpc : s.pc 0 = .outside) :
      Effect s q p .flush { s with pc := Function.update s.pc 0 .get } q p
  | write {tid : ℕ} {buffer : List Byte} {tx : RtRingbuffer} (hpc : s.pc tid = .outside)
      (htx : tx.Represents (p ++ (crlf buffer).take s.session.txRingbuffer.spaceLen)) :
      Effect s q p (.write tid buffer)
        { s with
          session := { s.session with txRingbuffer := tx }
          pc := Function.update s.pc tid .get
          accepted := s.accepted ++ (crlf buffer).take s.session.txRingbuffer.spaceLen }
        q (p ++ (crlf buffer).take s.session.txRingbuffer.spaceLen)
  | take {size : ℕ} (hpc : s.pc 1 = .outside) (hnotice : s.session.readNotice ≠ 0) :
      Effect s q p (.take size)
        { s with
          session := { s.session with readNotice := s.session.readNotice - 1 }
          pc := Function.update s.pc 1 (.read size) }
        q p
  | release {tid : ℕ} (hpc : s.pc tid = .release) :
      Effect s q p (.advance tid)
        { s with
          session := { s.session with readNotice := s.session.readNotice + 1 }
          pc := Function.update s.pc tid .outside }
        q p
  | get {tid : ℕ} {tx : RtRingbuffer} (hpc : s.pc tid = .get) (hne : p ≠ [])
      (htx : tx.Represents (p.drop 32)) :
      Effect s q p (.advance tid)
        { s with
          session := { s.session with txRingbuffer := tx }
          pc := Function.update s.pc tid (.send (p.take 32))
          taken := s.taken ++ [(tid, p.take 32)] }
        q (p.drop 32)
  | leave {tid : ℕ} {tx : RtRingbuffer} (hpc : s.pc tid = .get) (hnil : p = [])
      (htx : tx.Represents p) :
      Effect s q p (.advance tid)
        { s with
          session := { s.session with txRingbuffer := tx }
          pc := Function.update s.pc tid .outside }
        q p
  | send {tid : ℕ} {txBuffer : List Byte} (hpc : s.pc tid = .send txBuffer) :
      Effect s q p (.advance tid)
        { s with
          pc := Function.update s.pc tid .get
          sent := s.sent ++ [(tid, txBuffer)] }
        q p
  | read {tid size : ℕ} {rx : RtRingbuffer} (hpc : s.pc tid = .read size)
      (hrx : rx.Represents (q.drop (size % 2 ^ 16))) :
      Effect s q p (.advance tid)
        { s with
          session := { s.session with rxRingbuffer := rx }
          pc := Function.update s.pc tid .outside
          returned := s.returned ++
            [if (q.take (size % 2 ^ 16)).length = 0 then [0] else q.take (size % 2 ^ 16)]
          delivered := s.delivered ++ q.take (size % 2 ^ 16) }
        (q.drop (size % 2 ^ 16)) p

variable {s s' : System} {a : Act} {q p q' p' : List Byte}

/-- An act that a thread can take stays in the buffers. -/
theorem step_effect (hrx : s.session.rxRingbuffer.Represents q)
    (htx : s.session.txRingbuffer.Represents p) (h : s.Enabled a) :
    ∃ s' q' p', s.step a = some s' ∧ Effect s q p a s' q' p' := by
  unfold System.step
  rw [if_pos h]
  cases a with
  | receive data =>
    obtain ⟨pc, t, hprocess, hreceived⟩ := processRx_spec data hrx htx
    dsimp only
    rw [hprocess]
    exact ⟨_, _, _, rfl, .receive h hreceived⟩
  | flush => exact ⟨_, _, _, rfl, .flush h⟩
  | write tid buffer =>
    obtain ⟨k, tx, hloop, -, hrep⟩ := writeLoop_spec buffer htx
    dsimp only
    rw [hloop]
    exact ⟨_, _, _, rfl, .write h hrep⟩
  | take size => exact ⟨_, _, _, rfl, .take h.1 h.2⟩
  | advance tid =>
    dsimp only
    unfold System.advance
    cases hpc : s.pc tid with
    | outside => exact absurd hpc h
    | release => exact ⟨_, _, _, rfl, .release hpc⟩
    | get =>
      obtain ⟨tx, hget, hrep⟩ := htx.get 32
      dsimp only
      rw [hget]
      by_cases hnil : p = []
      · subst hnil
        exact ⟨_, _, _, rfl, .leave hpc rfl hrep⟩
      · have hpos : 0 < (p.take 32).length := by
          have := List.length_pos_iff.2 hnil
          simp
          omega
        dsimp only [Option.map_some]
        rw [if_pos hpos]
        exact ⟨_, _, _, rfl, .get hpc hnil hrep⟩
    | send txBuffer => exact ⟨_, _, _, rfl, .send hpc⟩
    | read size =>
      obtain ⟨rx, hget, hrep⟩ := hrx.get (size % 2 ^ 16)
      dsimp only
      rw [hget]
      exact ⟨_, _, _, rfl, .read hpc hrep⟩

/-- The ring buffers hold their contents. -/
theorem Effect.represents (h : Effect s q p a s' q' p')
    (hrx : s.session.rxRingbuffer.Represents q) (htx : s.session.txRingbuffer.Represents p) :
    s'.session.rxRingbuffer.Represents q' ∧ s'.session.txRingbuffer.Represents p' := by
  cases h with
  | receive _ hreceived => exact ⟨hreceived.rx, hreceived.tx⟩
  | flush _ => exact ⟨hrx, htx⟩
  | write _ h => exact ⟨hrx, h⟩
  | take _ _ => exact ⟨hrx, htx⟩
  | release _ => exact ⟨hrx, htx⟩
  | get _ _ h => exact ⟨hrx, h⟩
  | leave _ _ h => exact ⟨hrx, h⟩
  | send _ => exact ⟨hrx, htx⟩
  | read _ h => exact ⟨h, htx⟩

/-- The steps of the session. -/
def System.Step (s : System) (a : Act) (s' : System) : Prop := s.step a = some s'

theorem System.Step.effect (hs : System.Step s a s')
    (hrx : s.session.rxRingbuffer.Represents q) (htx : s.session.txRingbuffer.Represents p) :
    ∃ q' p', Effect s q p a s' q' p' ∧ s'.session.rxRingbuffer.Represents q' ∧
      s'.session.txRingbuffer.Represents p' := by
  have henabled : s.Enabled a := by
    by_contra h
    rw [System.Step, System.step, if_neg h] at hs
    cases hs
  obtain ⟨u, q', p', hu, heffect⟩ := step_effect hrx htx henabled
  cases hu.symm.trans hs
  exact ⟨q', p', heffect, heffect.represents hrx htx⟩

/-- A fact about the session and the contents of its buffers that every act keeps holds
    throughout a run. -/
theorem always_of_effect (Fact : System → List Byte → List Byte → Prop) {Ok : System → Act → Prop}
    (hkeep : ∀ {s q p a s' q' p'}, s.session.rxRingbuffer.Represents q → Fact s q p → Ok s a →
      Effect s q p a s' q' p' → Fact s' q' p')
    {tr : List (Act × System)} (hp : Path System.Step s tr)
    (hrx : s.session.rxRingbuffer.Represents q) (htx : s.session.txRingbuffer.Represents p)
    (h0 : Fact s q p) (hok : AllSteps Ok s tr) :
    ∃ q p, (last s tr).session.rxRingbuffer.Represents q ∧
      (last s tr).session.txRingbuffer.Represents p ∧ Fact (last s tr) q p := by
  refine (hp.always_of_steps (fun s => ∃ q p, s.session.rxRingbuffer.Represents q ∧
    s.session.txRingbuffer.Represents p ∧ Fact s q p) ?_ ⟨q, p, hrx, htx, h0⟩ hok).last
  rintro s s' a ⟨q, p, hrx, htx, h⟩ hok hs
  obtain ⟨q', p', heffect, hrx', htx'⟩ := hs.effect hrx htx
  exact ⟨q', p', hrx', htx', hkeep hrx h hok heffect⟩

theorem allSteps_true (s : System) (tr : List (Act × System)) :
    AllSteps (fun _ _ => True) s tr := by
  induction tr generalizing s with
  | nil => trivial
  | cons x tr ih => exact ⟨trivial, ih _⟩

theorem start_pc (t : TelnetSession) :
    (System.start t).pc = Function.update (fun _ => Pc.outside) 0 .get := rfl

/-! ## Output -/

/-- The block that a thread has taken and not sent. -/
def Pc.held : Pc → List (List Byte)
  | .send txBuffer => [txBuffer]
  | _ => []

/-- The thread is within `send_to_client`. -/
def Pc.Sending (pc : Pc) : Prop := pc = .get ∨ ∃ txBuffer, pc = .send txBuffer

/-- The blocks of a thread. -/
def blocksOf (tid : ℕ) (blocks : List (ℕ × List Byte)) : List (List Byte) :=
  (blocks.filter fun b => b.1 = tid).map Prod.snd

theorem blocksOf_append (tid : ℕ) (a b : List (ℕ × List Byte)) :
    blocksOf tid (a ++ b) = blocksOf tid a ++ blocksOf tid b := by
  simp [blocksOf]

theorem blocksOf_singleton (tid j : ℕ) (b : List Byte) :
    blocksOf tid [(j, b)] = if j = tid then [b] else [] := by
  by_cases h : j = tid <;> simp [blocksOf, h]

/-- A block belongs to its thread. -/
theorem eq_nil_of_blocksOf {l : List (ℕ × List Byte)} (h : ∀ tid, blocksOf tid l = []) :
    l = [] := by
  cases l with
  | nil => rfl
  | cons b l =>
    have hb := h b.1
    simp [blocksOf] at hb

/-- Where the bytes that have been put into `tx_ringbuffer` are, behind the first ones `p0`. -/
structure Output (p0 : List Byte) (s : System) (p : List Byte) : Prop where
  bytes : s.taken.flatMap Prod.snd ++ p = p0 ++ s.accepted
  blocks : ∀ tid, blocksOf tid s.taken = blocksOf tid s.sent ++ (s.pc tid).held
  rest : (∀ tid, ¬ (s.pc tid).Sending) → p = []

/-- Threads other than `tid` do not change, and `tid` was not within `send_to_client`. -/
theorem not_sending_of_update {pc : ℕ → Pc} {tid : ℕ} {c : Pc} (hpc : ¬ (pc tid).Sending)
    (h : ∀ j, ¬ (Function.update pc tid c j).Sending) (j : ℕ) : ¬ (pc j).Sending := by
  by_cases hj : j = tid
  · rw [hj]
    exact hpc
  · have hother := h j
    rwa [Function.update_of_ne hj] at hother

/-- What is the same of the new place of a thread is the same of all. -/
theorem update_part {β : Type} (f : Pc → β) {pc : ℕ → Pc} {tid : ℕ} {c : Pc}
    (h : f c = f (pc tid)) (j : ℕ) : f (Function.update pc tid c j) = f (pc j) := by
  by_cases hj : j = tid
  · rw [hj, Function.update_self, h]
  · rw [Function.update_of_ne hj]

theorem not_sending_outside : ¬ Pc.outside.Sending := by
  rintro (h | ⟨b, h⟩) <;> cases h

theorem Output.effect {p0 : List Byte} (h : Output p0 s p) (he : Effect s q p a s' q' p') :
    Output p0 s' p' := by
  obtain ⟨hbytes, hblocks, hrest⟩ := h
  cases he with
  | @receive data pc t hpc hreceived =>
    have hc : pc.held = (s.pc 0).held := by
      rw [hpc, hreceived.pc]
      split_ifs <;> rfl
    refine ⟨?_, fun tid => ?_, fun hs => ?_⟩
    · dsimp only
      rw [← List.append_assoc, hbytes, List.append_assoc]
    · dsimp only
      rw [update_part Pc.held hc]
      exact hblocks tid
    · by_cases hanswer : answer s.session.state data = []
      · have hp := hrest (not_sending_of_update (by rw [hpc]; exact not_sending_outside) hs)
        rw [hp, hanswer, List.take_nil, List.append_nil]
      · have h0 := hs 0
        dsimp only at h0
        rw [Function.update_self, hreceived.pc, if_pos hanswer] at h0
        exact absurd (Or.inl rfl) h0
  | flush hpc =>
    refine ⟨hbytes, fun tid => ?_, fun hs => ?_⟩
    · dsimp only
      rw [update_part Pc.held (by rw [hpc]; rfl)]
      exact hblocks tid
    · have h0 := hs 0
      dsimp only at h0
      rw [Function.update_self] at h0
      exact absurd (Or.inl rfl) h0
  | @write tid _ _ hpc _ =>
    refine ⟨?_, fun tid => ?_, fun hs => ?_⟩
    · dsimp only
      rw [← List.append_assoc, hbytes, List.append_assoc]
    · dsimp only
      rw [update_part Pc.held (by rw [hpc]; rfl)]
      exact hblocks tid
    · have h0 := hs tid
      dsimp only at h0
      rw [Function.update_self] at h0
      exact absurd (Or.inl rfl) h0
  | take hpc _ =>
    refine ⟨hbytes, fun tid => ?_, fun hs => ?_⟩
    · dsimp only
      rw [update_part Pc.held (by rw [hpc]; rfl)]
      exact hblocks tid
    · exact hrest (not_sending_of_update (by rw [hpc]; exact not_sending_outside) hs)
  | release hpc =>
    refine ⟨hbytes, fun tid => ?_, fun hs => ?_⟩
    · dsimp only
      rw [update_part Pc.held (by rw [hpc]; rfl)]
      exact hblocks tid
    · refine hrest (not_sending_of_update ?_ hs)
      rw [hpc]
      rintro (h | ⟨b, h⟩) <;> cases h
  | @get tid _ hpc _ _ =>
    refine ⟨?_, fun j => ?_, fun hs => ?_⟩
    · dsimp only
      rw [← hbytes, List.flatMap_append, List.flatMap_singleton, List.append_assoc,
        List.take_append_drop]
    · dsimp only
      rw [blocksOf_append, blocksOf_singleton, hblocks, List.append_assoc]
      congr 1
      by_cases hj : tid = j
      · subst hj
        rw [if_pos rfl, Function.update_self, hpc]
        rfl
      · rw [if_neg hj, Function.update_of_ne (Ne.symm hj), List.append_nil]
    · have h0 := hs tid
      dsimp only at h0
      rw [Function.update_self] at h0
      exact absurd (Or.inr ⟨_, rfl⟩) h0
  | leave hpc hnil _ =>
    refine ⟨hbytes, fun tid => ?_, fun _ => hnil⟩
    dsimp only
    rw [update_part Pc.held (by rw [hpc]; rfl)]
    exact hblocks tid
  | @send tid txBuffer hpc =>
    refine ⟨hbytes, fun j => ?_, fun hs => ?_⟩
    · dsimp only
      rw [blocksOf_append, blocksOf_singleton, hblocks, List.append_assoc]
      congr 1
      by_cases hj : tid = j
      · subst hj
        rw [if_pos rfl, Function.update_self, hpc]
        rfl
      · rw [if_neg hj, Function.update_of_ne (Ne.symm hj), List.nil_append]
    · have h0 := hs tid
      dsimp only at h0
      rw [Function.update_self] at h0
      exact absurd (Or.inl rfl) h0
  | read hpc _ =>
    refine ⟨hbytes, fun tid => ?_, fun hs => ?_⟩
    · dsimp only
      rw [update_part Pc.held (by rw [hpc]; rfl)]
      exact hblocks tid
    · refine hrest (not_sending_of_update ?_ hs)
      rw [hpc]
      rintro (h | ⟨b, h⟩) <;> cases h

/-- No thread takes a block while there is one that is not sent. -/
def Alone (s : System) (a : Act) : Prop :=
  ∀ tid, a = .advance tid → s.pc tid = .get → ∀ j, (s.pc j).held = []

/-- The blocks are sent in the order they were taken. -/
def InOrder (s : System) : Prop := ∃ l, s.taken = s.sent ++ l ∧ l.length ≤ 1

/-- What has been taken and not sent. -/
theorem Output.held_eq {p0 : List Byte} {l : List (ℕ × List Byte)} (h : Output p0 s p)
    (hl : s.taken = s.sent ++ l) (tid : ℕ) : blocksOf tid l = (s.pc tid).held := by
  have hblocks := h.blocks tid
  rw [hl, blocksOf_append] at hblocks
  exact List.append_cancel_left hblocks

theorem InOrder.effect {p0 : List Byte} (h : InOrder s) (hout : Output p0 s p) (hok : Alone s a)
    (he : Effect s q p a s' q' p') : InOrder s' := by
  obtain ⟨l, hl, hlen⟩ := h
  cases he with
  | receive _ _ => exact ⟨l, hl, hlen⟩
  | flush _ => exact ⟨l, hl, hlen⟩
  | write _ _ => exact ⟨l, hl, hlen⟩
  | take _ _ => exact ⟨l, hl, hlen⟩
  | release _ => exact ⟨l, hl, hlen⟩
  | leave _ _ _ => exact ⟨l, hl, hlen⟩
  | read _ _ => exact ⟨l, hl, hlen⟩
  | @get tid _ hpc _ _ =>
    have hnil : l = [] :=
      eq_nil_of_blocksOf fun j => (hout.held_eq hl j).trans (hok tid rfl hpc j)
    rw [hnil, List.append_nil] at hl
    exact ⟨[(tid, p.take 32)], by dsimp only; rw [hl], le_rfl⟩
  | @send tid txBuffer hpc =>
    have hheld := hout.held_eq hl tid
    rw [hpc] at hheld
    have hone : l = [(tid, txBuffer)] := by
      rcases l with - | ⟨⟨j, b⟩, - | ⟨c, l⟩⟩
      · cases hheld
      · rw [blocksOf_singleton] at hheld
        by_cases hj : j = tid
        · rw [if_pos hj] at hheld
          cases hheld
          rw [hj]
        · rw [if_neg hj] at hheld
          cases hheld
      · simp at hlen
    exact ⟨[], by dsimp only; rw [hl, hone, List.append_nil], Nat.zero_le _⟩

/-- What has been put into `tx_ringbuffer`, behind what was in it, is sent once. -/
theorem output_delivers {t : TelnetSession} {p0 : List Byte} (hrx : t.rxRingbuffer.Represents q)
    (htx : t.txRingbuffer.Represents p0) {tr : List (Act × System)}
    (h : Path System.Step (.start t) tr) :
    ∃ p, (last (.start t) tr).session.txRingbuffer.Represents p ∧
      (last (.start t) tr).taken.flatMap Prod.snd ++ p = p0 ++ (last (.start t) tr).accepted ∧
      (∀ tid, blocksOf tid (last (.start t) tr).taken =
        blocksOf tid (last (.start t) tr).sent ++ ((last (.start t) tr).pc tid).held) ∧
      ((∀ tid, ¬ ((last (.start t) tr).pc tid).Sending) → p = []) ∧
      (AllSteps Alone (.start t) tr →
        (last (.start t) tr).sent.flatMap Prod.snd <+: p0 ++ (last (.start t) tr).accepted ∧
        ((∀ tid, ¬ ((last (.start t) tr).pc tid).Sending) →
          (last (.start t) tr).sent.flatMap Prod.snd = p0 ++ (last (.start t) tr).accepted)) := by
  have hstart : Output p0 (.start t) p0 := by
    refine ⟨(List.append_nil _).symm, fun tid => ?_, fun hs => ?_⟩
    · show [] = (Function.update (fun _ => Pc.outside) 0 .get tid).held
      rw [update_part Pc.held (by rfl)]
      rfl
    · have hget : (System.start t).pc 0 = .get := by rw [start_pc, Function.update_self]
      exact absurd (Or.inl hget) (hs 0)
  obtain ⟨-, p, -, hp, hout⟩ := always_of_effect (fun s _ p => Output p0 s p)
    (fun _ h _ he => h.effect he) h hrx htx hstart (allSteps_true _ _)
  refine ⟨p, hp, hout.bytes, hout.blocks, hout.rest, fun hok => ?_⟩
  obtain ⟨-, p', -, -, hout', l, hl, -⟩ := always_of_effect
    (fun s _ p => Output p0 s p ∧ InOrder s)
    (fun _ h hok he => ⟨h.1.effect he, h.2.effect h.1 hok he⟩) h hrx htx
    ⟨hstart, [], rfl, Nat.zero_le 1⟩ hok
  have hbytes := hout'.bytes
  rw [hl, List.flatMap_append, List.append_assoc] at hbytes
  refine ⟨⟨_, hbytes⟩, fun hs => ?_⟩
  have hnil : l = [] := by
    refine eq_nil_of_blocksOf fun tid => ?_
    rw [hout'.held_eq hl]
    cases hpc : (last (.start t) tr).pc tid with
    | send b => exact absurd (Or.inr ⟨b, hpc⟩) (hs tid)
    | outside => rfl
    | release => rfl
    | get => rfl
    | read size => rfl
  rw [hnil, hout'.rest hs, List.flatMap_nil, List.append_nil, List.append_nil] at hbytes
  exact hbytes

/-- A session with small buffers, before anything has come or gone. -/
def exampleSession : TelnetSession :=
  { rxRingbuffer := .init (List.replicate 4 0) 4
    txRingbuffer := .init (List.replicate 4 0) 4
    state := .stateNormal
    readNotice := 0 }

theorem exampleSession_represents :
    exampleSession.rxRingbuffer.Represents [] ∧ exampleSession.txRingbuffer.Represents [] := by
  have h : (Beside.start (List.replicate 4 0) 4).Agree :=
    Beside.start_agree (le_refl rtAlignSize) (by decide) (by decide)
  exact ⟨h, h⟩

/-- The shell writes `"a\n"` and sends three bytes. -/
theorem output_delivers_write :
    ∃ tr p, exec System.step (.start exampleSession)
        [.advance 0, .write 1 [0x61, 0x0a], .advance 1, .advance 1] = some tr ∧
      (last (.start exampleSession) tr).sent = [(1, [0x61, 0x0d, 0x0a])] ∧
      (last (.start exampleSession) tr).taken.flatMap Prod.snd ++ p = [0x61, 0x0d, 0x0a] := by
  obtain ⟨tr, htr⟩ := Option.isSome_iff_exists.1 (show (exec System.step (.start exampleSession)
    [.advance 0, .write 1 [0x61, 0x0a], .advance 1, .advance 1]).isSome by decide +kernel)
  have hlast : (exec System.step (.start exampleSession)
      [.advance 0, .write 1 [0x61, 0x0a], .advance 1, .advance 1]).map
        (fun tr => ((last (.start exampleSession) tr).sent,
          (last (.start exampleSession) tr).accepted)) =
      some ([(1, [0x61, 0x0d, 0x0a])], [0x61, 0x0d, 0x0a]) := by
    decide +kernel
  rw [htr] at hlast
  obtain ⟨hsent, haccepted⟩ := Prod.mk.inj (Option.some.inj hlast)
  obtain ⟨p, -, hbytes, -⟩ := output_delivers exampleSession_represents.1
    exampleSession_represents.2 (exec_path (fun h => h) htr)
  rw [haccepted] at hbytes
  exact ⟨tr, p, htr, hsent, hbytes⟩

/-! ## Input -/

/-- The byte finds room in `rx_ringbuffer` if it is one of the text. -/
def Roomy (s : System) (a : Act) : Prop :=
  ∀ data, a = .receive data → datum s.session.state data ≠ [] → s.session.rxRingbuffer.spaceLen ≠ 0

instance (s : System) : (a : Act) → Decidable (Roomy s a)
  | .receive data => decidable_of_iff
      (datum s.session.state data ≠ [] → s.session.rxRingbuffer.spaceLen ≠ 0)
      ⟨fun h _ he => by cases he; exact h, fun h => h data rfl⟩
  | .flush => isTrue nofun
  | .write _ _ => isTrue nofun
  | .take _ => isTrue nofun
  | .advance _ => isTrue nofun

/-- The shell reads single bytes (`shell.c` line 329). -/
def ByteReads (_ : System) (a : Act) : Prop := ∀ size, a = .take size → size = 1

instance (s : System) : (a : Act) → Decidable (ByteReads s a)
  | .take size => decidable_of_iff (size = 1)
      ⟨fun h _ he => by cases he; exact h, fun h => h size rfl⟩
  | .receive _ => isTrue nofun
  | .flush => isTrue nofun
  | .write _ _ => isTrue nofun
  | .advance _ => isTrue nofun

/-- The bytes of the text that found room. -/
def System.kept (s : System) : List Byte := (s.text.filter Prod.snd).map Prod.fst

/-- What has been received, read, and waits in `rx_ringbuffer`. -/
structure Input (s : System) (q : List Byte) : Prop where
  state : s.session.state = nexts .stateNormal s.received
  text : s.text.map Prod.fst = decode .stateNormal s.received
  kept : s.delivered ++ q = s.kept

theorem nexts_snoc (received : List Byte) (data : Byte) :
    nexts .stateNormal (received ++ [data]) = next (nexts .stateNormal received) data := by
  rw [nexts_append]
  rfl

theorem decode_snoc (received : List Byte) (data : Byte) :
    decode .stateNormal (received ++ [data]) =
      decode .stateNormal received ++ datum (nexts .stateNormal received) data := by
  rw [decode_append, decode, decode, List.append_nil]

/-- A byte of the text that is put into the buffer is one that found room. -/
theorem filter_datum (n : ℕ) (state : TelnetState) (data : Byte) :
    (((datum state data).map fun b => (b, decide (n ≠ 0))).filter Prod.snd).map Prod.fst =
      (datum state data).take n := by
  by_cases hd : datum state data = []
  · simp [hd]
  · rw [datum_eq hd]
    by_cases hn : n = 0
    · simp [hn]
    · simp [hn, List.take_of_length_le, Nat.one_le_iff_ne_zero.2 hn]

theorem Input.effect (h : Input s q) (he : Effect s q p a s' q' p') : Input s' q' := by
  obtain ⟨hstate, htext, hkept⟩ := h
  cases he with
  | @receive data pc t hpc hreceived =>
    refine ⟨?_, ?_, ?_⟩
    · dsimp only
      rw [hreceived.state, nexts_snoc, hstate]
    · dsimp only
      rw [decode_snoc, List.map_append, htext, ← hstate, List.map_map]
      congr 1
      exact List.map_id _
    · unfold System.kept at hkept ⊢
      dsimp only
      rw [List.filter_append, List.map_append, ← hkept, filter_datum, List.append_assoc]
  | flush _ => exact ⟨hstate, htext, hkept⟩
  | write _ _ => exact ⟨hstate, htext, hkept⟩
  | take _ _ => exact ⟨hstate, htext, hkept⟩
  | release _ => exact ⟨hstate, htext, hkept⟩
  | get _ _ _ => exact ⟨hstate, htext, hkept⟩
  | leave _ _ _ => exact ⟨hstate, htext, hkept⟩
  | send _ => exact ⟨hstate, htext, hkept⟩
  | @read tid size rx _ _ =>
    refine ⟨hstate, htext, ?_⟩
    dsimp only
    rw [List.append_assoc, List.take_append_drop]
    exact hkept

/-- Nothing of the text is lost. -/
def Whole (s : System) (q : List Byte) : Prop := s.delivered ++ q = decode .stateNormal s.received

theorem take_datum {n : ℕ} {state : TelnetState} {data : Byte} (h : datum state data ≠ [] → n ≠ 0) :
    (datum state data).take n = datum state data := by
  by_cases hd : datum state data = []
  · rw [hd, List.take_nil]
  · have hpos := h hd
    rw [datum_eq hd]
    exact List.take_of_length_le (by rw [List.length_singleton]; omega)

theorem Whole.effect (h : Whole s q) (hin : Input s q) (hok : Roomy s a)
    (he : Effect s q p a s' q' p') : Whole s' q' := by
  unfold Whole at h ⊢
  cases he with
  | @receive data pc t hpc hreceived =>
    dsimp only
    rw [decode_snoc, ← List.append_assoc, h, ← hin.state, take_datum (hok data rfl)]
  | flush _ => exact h
  | write _ _ => exact h
  | take _ _ => exact h
  | release _ => exact h
  | get _ _ _ => exact h
  | leave _ _ _ => exact h
  | send _ => exact h
  | @read tid size rx _ _ =>
    dsimp only
    rw [List.append_assoc, List.take_append_drop]
    exact h

/-- A read for which the semaphore has been taken. -/
def Pc.reads : Pc → ℕ
  | .read _ => 1
  | _ => 0

/-- A byte for which the semaphore is still to be released. -/
def Pc.releases : Pc → ℕ
  | .release => 1
  | _ => 0

/-- The bytes that wait are those for which the shell is notified, and the escaped ones. -/
structure Lag (s : System) (q : List Byte) : Prop where
  reader : ∀ tid size, s.pc tid = .read size → tid = 1 ∧ size = 1
  releaser : ∀ tid, s.pc tid = .release → tid = 0
  count : q.length = s.session.readNotice.toNat + (s.pc 1).reads + (s.pc 0).releases +
    escapes .stateNormal s.received
  returned : s.returned = s.delivered.map fun b => [b]

theorem eq_read_of_update {pc : ℕ → Pc} {tid j size : ℕ} {c : Pc} (hc : c.reads = 0)
    (h : Function.update pc tid c j = .read size) : pc j = .read size := by
  by_cases hj : j = tid
  · rw [hj, Function.update_self] at h
    rw [h] at hc
    cases hc
  · rwa [Function.update_of_ne hj] at h

theorem eq_release_of_update {pc : ℕ → Pc} {tid j : ℕ} {c : Pc} (hc : c.releases = 0)
    (h : Function.update pc tid c j = .release) : pc j = .release := by
  by_cases hj : j = tid
  · rw [hj, Function.update_self] at h
    rw [h] at hc
    cases hc
  · rwa [Function.update_of_ne hj] at h

/-- A byte of the text is one for which the semaphore is released, or an escaped one. -/
theorem Received.releases {data : Byte} {pc : Pc} {t t' : TelnetSession}
    (h : Received t q p data pc t') :
    (datum t.state data).length =
      pc.releases + if t.state = .stateIac then (datum t.state data).length else 0 := by
  rw [h.pc]
  cases hstate : t.state with
  | stateNormal =>
    by_cases hd : datum .stateNormal data = []
    · rw [hd]
      rfl
    · rw [datum_eq hd]
      rfl
  | stateIac => simp [answer, Pc.releases]
  | stateWill => rfl
  | stateWont => rfl
  | stateDo => rfl
  | stateDont => rfl

/-- A thread that goes on keeps out of the counts. -/
theorem Lag.of_update {tid : ℕ} {c : Pc} (h : Lag s q) (hc : c.reads = 0 ∧ c.releases = 0)
    (hpc : (s.pc tid).reads = 0 ∧ (s.pc tid).releases = 0)
    (hs : s'.pc = Function.update s.pc tid c)
    (hnotice : s'.session.readNotice = s.session.readNotice) (hreceived : s'.received = s.received)
    (hreturned : s'.returned = s.returned) (hdelivered : s'.delivered = s.delivered) :
    Lag s' q := by
  refine ⟨fun j size hj => ?_, fun j hj => ?_, ?_, ?_⟩
  · rw [hs] at hj
    exact h.reader j size (eq_read_of_update hc.1 hj)
  · rw [hs] at hj
    exact h.releaser j (eq_release_of_update hc.2 hj)
  · rw [hs, hnotice, hreceived, update_part Pc.reads (by rw [hc.1, hpc.1]),
      update_part Pc.releases (by rw [hc.2, hpc.2])]
    exact h.count
  · rw [hreturned, hdelivered]
    exact h.returned

theorem Lag.effect (hrx : s.session.rxRingbuffer.Represents q) (h : Lag s q) (hin : Input s q)
    (hroom : Roomy s a) (hbyte : ByteReads s a) (he : Effect s q p a s' q' p') : Lag s' q' := by
  have hsmall := hrx.size
  have hfits := hrx.holds.fits
  have hcount := h.count
  cases he with
  | @receive data pc t hpc hreceived =>
    have hreads : pc.reads = 0 := by
      rw [hreceived.pc]
      split_ifs <;> rfl
    have hdatum := hreceived.releases
    refine ⟨fun j size hj => h.reader j size (eq_read_of_update hreads hj), fun j hj => ?_, ?_,
      h.returned⟩
    · by_cases h0 : j = 0
      · exact h0
      · dsimp only at hj
        rw [Function.update_of_ne h0] at hj
        exact h.releaser j hj
    · dsimp only
      rw [take_datum (hroom data rfl), List.length_append, escapes_append, ← hin.state,
        hreceived.readNotice, Function.update_of_ne Nat.one_ne_zero, Function.update_self]
      rw [hpc] at hcount
      simp only [escapes, Nat.add_zero]
      have hnone : Pc.outside.releases = 0 := rfl
      omega
  | flush hpc => exact h.of_update ⟨rfl, rfl⟩ (by rw [hpc]; exact ⟨rfl, rfl⟩) rfl rfl rfl rfl rfl
  | write hpc _ => exact h.of_update ⟨rfl, rfl⟩ (by rw [hpc]; exact ⟨rfl, rfl⟩) rfl rfl rfl rfl rfl
  | get hpc _ _ => exact h.of_update ⟨rfl, rfl⟩ (by rw [hpc]; exact ⟨rfl, rfl⟩) rfl rfl rfl rfl rfl
  | leave hpc _ _ =>
    exact h.of_update ⟨rfl, rfl⟩ (by rw [hpc]; exact ⟨rfl, rfl⟩) rfl rfl rfl rfl rfl
  | send hpc => exact h.of_update ⟨rfl, rfl⟩ (by rw [hpc]; exact ⟨rfl, rfl⟩) rfl rfl rfl rfl rfl
  | @take size hpc hnotice =>
    have hpos : s.session.readNotice.toNat ≠ 0 := fun h0 => hnotice (BitVec.eq_of_toNat_eq h0)
    have hless : (s.session.readNotice - 1).toNat = s.session.readNotice.toNat - 1 := by
      rw [BitVec.toNat_sub_of_le (by rw [BitVec.le_def]; show 1 ≤ _; omega)]
      rfl
    refine ⟨fun j n hj => ?_, fun j hj => ?_, ?_, h.returned⟩
    · dsimp only at hj
      by_cases h1 : j = 1
      · rw [h1, Function.update_self] at hj
        cases hj
        exact ⟨h1, hbyte _ rfl⟩
      · rw [Function.update_of_ne h1] at hj
        exact h.reader j n hj
    · exact h.releaser j (eq_release_of_update rfl hj)
    · dsimp only
      rw [hless, Function.update_self, Function.update_of_ne Nat.zero_ne_one]
      rw [hpc] at hcount
      have hone : (Pc.read size).reads = 1 := rfl
      have hnone : Pc.outside.reads = 0 := rfl
      omega
  | @release tid hpc =>
    obtain rfl := h.releaser tid hpc
    rw [hpc] at hcount
    have hone : Pc.release.releases = 1 := rfl
    have hnone : Pc.outside.releases = 0 := rfl
    have hmore : (s.session.readNotice + 1).toNat = s.session.readNotice.toNat + 1 := by
      rw [BitVec.toNat_add]
      show (_ + 1) % _ = _
      omega
    refine ⟨fun j size hj => h.reader j size (eq_read_of_update rfl hj),
      fun j hj => h.releaser j (eq_release_of_update rfl hj), ?_, h.returned⟩
    dsimp only
    rw [hmore, Function.update_self, Function.update_of_ne Nat.one_ne_zero]
    omega
  | @read tid size rx hpc _ =>
    obtain ⟨rfl, rfl⟩ := h.reader tid size hpc
    rw [hpc] at hcount
    have hone : (Pc.read 1).reads = 1 := rfl
    have hnone : Pc.outside.reads = 0 := rfl
    obtain ⟨b, q, rfl⟩ : ∃ b q', q = b :: q' := by
      cases q with
      | nil =>
        rw [List.length_nil] at hcount
        omega
      | cons b q => exact ⟨b, q, rfl⟩
    rw [List.length_cons] at hcount
    refine ⟨fun j size hj => h.reader j size (eq_read_of_update rfl hj),
      fun j hj => h.releaser j (eq_release_of_update rfl hj), ?_, ?_⟩
    · dsimp only
      rw [Function.update_self, Function.update_of_ne Nat.zero_ne_one]
      show q.length = _
      omega
    · show s.returned ++ [[b]] = (s.delivered ++ [b]).map fun b => [b]
      rw [h.returned, List.map_append]
      rfl

end Abox.Telnet
