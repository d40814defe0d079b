import Abox.Radio.Fifo
import Abox.Server.Chunking
import Abox.Server.Gateway

/-!
# From the stream of the server to a Cbox

The frames of the stream come in chunks, are cut out of `Eth_Rev_Buff` by the receiving
thread, wait in the queue of their Cbox and leave in fragments of the polls, while the two
threads run in any order.

* `downlink_delivers`: what a Cbox has answered, then what waits for it, are the frames for it
  that have been handled, byte for byte and in order; when the receiving thread waits again
  behind the whole stream, these are all of them.
-/

namespace Abox.Server

open Radio Runs

/-! ## Specification -/

/-- The bytes of a frame that is for the Cbox with the id `id`. -/
def Dispatch.bytesFor (id : BitVec 32) (d : Dispatch) : List Byte :=
  if d.target = .recvServerData ∧ (StPackCmd.ofBytes d.frame).id = id then d.frame else []

/-- The bytes of the frames for the Cbox with the id `id`. -/
def bytesFor (id : BitVec 32) (log : List Dispatch) : List Byte :=
  log.flatMap (Dispatch.bytesFor id)

/-! ## Model -/

/-- The two threads, and a Cbox in its slot with the bytes that it has answered. -/
structure Downlink where
  gateway : Gateway
  cboxIndex : ℕ
  acked : List Byte

/-- What a step is for the radio thread. -/
def radioEvent (g : Gateway) : Act → Option Event
  | .recvServerData => some (.recvServerData g.eth.buf)
  | .other e => some e
  | _ => none

/-- The bytes that a step receives. -/
def received : Act → List Byte
  | .recv chunk => chunk
  | _ => []

section

variable (appId : BitVec 32) (atStatus : ℕ → AtStatus)

/-- One step during which the Cbox stays online. -/
def Downlink.step (fuel : ℕ) (d : Downlink) (a : Act) : Option Downlink :=
  let e := radioEvent d.gateway a
  if e.all fun e => e.keeps d.cboxIndex then
    (d.gateway.step appId atStatus fuel a).map fun g =>
      { gateway := g
        cboxIndex := e.elim d.cboxIndex (slotAfterEvent d.cboxIndex)
        acked := d.acked ++ e.elim [] (ackedBytes d.gateway.subg d.cboxIndex) }
  else none

def Downlink.Step (d : Downlink) (a : Act) (d' : Downlink) : Prop :=
  ∃ fuel, d.step appId atStatus fuel a = some d'

/-- The Cbox keeps the id `id`, and nothing for it is lost: a frame that is saved finds its list
    not full and no other Cbox with its id, the receiving thread does not give up and clean the
    pool, and what a failed poll has not sent finds room. -/
def Downlink.Ok (id : BitVec 32) (d : Downlink) : Act → Prop
  | .recvServerData =>
    (d.gateway.subg.aboxInfo.cboxInfo d.cboxIndex).modId = id ∧
      Lossless d.gateway.subg d.cboxIndex (.recvServerData d.gateway.eth.buf) ∧
      ¬ (NoRoom d.gateway.subg.aboxInfo d.gateway.eth.buf ∧ 1000 < d.gateway.saveErr)
  | .other e => Lossless d.gateway.subg d.cboxIndex e
  | _ => True

/-! ## The receiving thread -/

/-- The frames `fs` of the stream are handled, or to be handled when the call of
    `processDataFromServer` under way goes on, up to those that `future` completes. -/
def Fed (fs : List (ℕ × List Byte)) (g : Gateway) (future : List Byte) : Prop :=
  ∃ (l : Live) (done rest : List (ℕ × List Byte)), fs = done ++ rest ∧
    g.settled appId atStatus = l.toState ∧ l.data.length ≤ buffLen ∧
    l.log = done.map (handled appId atStatus) ∧ Stream l.offset rest (l.data ++ future) ∧
    (future = [] → rest = [])

variable {appId atStatus}

theorem Fed.step {fs : List (ℕ × List Byte)} {g g' : Gateway} {a : Act} {future : List Byte}
    (h : Fed appId atStatus fs g (received a ++ future)) (hs : g.Step appId atStatus a g') :
    Fed appId atStatus fs g' future := by
  obtain ⟨l, done, rest, rfl, hl, hlen, hlog, hstream, hend⟩ := h
  have hsettled := settled_step hs
  cases hs.effect with
  | @recv chunk hstage hne hfits =>
    obtain ⟨more, rest', rfl, hlog', hstream', hend'⟩ := recv_stream appId atStatus
      (show Stream l.offset rest (l.data ++ (chunk ++ future)) from hstream)
    have heth : g.eth = l.toState := by
      rw [← hl]
      unfold Gateway.settled
      rw [hstage]
    have hbuf : buffLen ≤ sizeofEthRevBuff := by decide
    rw [heth] at hfits
    refine ⟨l.recv appId atStatus chunk, done ++ more, rest', by rw [List.append_assoc], ?_,
      length_recv_le appId atStatus l chunk, ?_, hstream', hend'⟩
    · rw [hsettled]
      dsimp only
      rw [hl, recv_toState appId atStatus hfits (le_trans hlen hbuf)]
    · rw [hlog', hlog, List.map_append]
  | parse => exact ⟨l, done, rest, rfl, hsettled.trans hl, hlen, hlog, hstream, hend⟩
  | recvServerData => exact ⟨l, done, rest, rfl, hsettled.trans hl, hlen, hlog, hstream, hend⟩
  | other => exact ⟨l, done, rest, rfl, hsettled.trans hl, hlen, hlog, hstream, hend⟩

theorem log_skip (s : State) : s.skip.log = s.log := by
  induction s using State.skip.induct with
  | case1 s h ih =>
    rw [State.skip, if_pos h]
    exact ih
  | case2 s h => rw [State.skip, if_neg h]

theorem log_settle_flush (s : State) : s.flush.log = s.log := by
  unfold State.flush
  split_ifs <;> rfl

theorem log_pass (s : State) : s.pass.1.log = s.log := by
  unfold State.pass
  dsimp only
  split_ifs <;> exact log_skip s

/-- A frame that is complete. -/
theorem pass_some {s s1 : State} {tlen : ℕ} (h : s.pass = (s1, some tlen)) :
    s1 = s.skip ∧ tlen = (StPackCmd.ofBytes s1.buf).frameLen ∧ 0 < tlen ∧ tlen ≤ s1.recvLen := by
  unfold State.pass at h
  dsimp only at h
  split_ifs at h with hlen hcrc
  · cases (Prod.mk.inj h).2
  · obtain ⟨rfl, hframe⟩ := Prod.mk.inj h
    injection hframe with hframe
    rw [hframe] at hlen hcrc
    refine ⟨rfl, hframe.symm, Nat.pos_of_ne_zero fun hzero => ?_, Nat.le_of_not_lt hlen⟩
    rw [hzero] at hcrc
    exact ModbusCrc16_nil _ hcrc
  · cases (Prod.mk.inj h).2

theorem log_prefix_parse (s : State) : s.log <+: (s.scan appId atStatus).log := by
  induction hn : s.recvLen using Nat.strong_induction_on generalizing s with
  | _ n ih =>
    rcases hpass : s.pass with ⟨s1, - | tlen⟩
    · rw [scan_of_pass_none hpass, ← log_pass s, hpass]
    · rw [scan_of_pass_some hpass]
      have hlog : s.log <+: (s1.take appId atStatus tlen).log := by
        rw [← log_pass s, hpass]
        exact List.prefix_append _ _
      split_ifs with hrest
      · refine hlog.trans (ih _ ?_ _ rfl)
        obtain ⟨rfl, -, hpos, hle⟩ := pass_some hpass
        have hskip := s.skip_recvLen_le
        show s.skip.recvLen - tlen < n
        omega
      · exact hlog

/-- The frame that is to be saved is logged when the call under way goes on. -/
theorem log_settled_save {g : Gateway} {tlen : ℕ} (h : g.stage = .save tlen) :
    (g.eth.take appId atStatus tlen).log <+: (g.settled appId atStatus).log := by
  unfold Gateway.settled
  rw [h]
  dsimp only
  rw [log_settle_flush]
  split_ifs
  · exact log_prefix_parse _
  · exact List.prefix_rfl

theorem log_prefix_settled (g : Gateway) : g.eth.log <+: (g.settled appId atStatus).log := by
  cases hstage : g.stage with
  | recv =>
    unfold Gateway.settled
    rw [hstage]
  | parse =>
    unfold Gateway.settled
    rw [hstage]
    dsimp only
    rw [log_settle_flush]
    exact log_prefix_parse _
  | save tlen => exact (List.prefix_append _ _).trans (log_settled_save hstage)

/-! ## The queue -/

/-- The bytes for the Cbox, as the radio thread sees it. -/
def Downlink.view (id : BitVec 32) (d : Downlink) : CboxView :=
  { subg := d.gateway.subg
    cboxIndex := d.cboxIndex
    acked := d.acked
    accepted := bytesFor id d.gateway.eth.log }

variable (appId) in
/-- The frame that is to be saved is for `recvServerData`. -/
def Saving (atStatus : ℕ → AtStatus) (g : Gateway) : Prop :=
  ∀ tlen, g.stage = .save tlen → tlen = (StPackCmd.ofBytes g.eth.buf).frameLen ∧
    target appId (StPackCmd.ofBytes g.eth.buf) (atStatus g.eth.offset) = .recvServerData

/-- What holds between the steps. -/
structure Downlink.Inv (appId : BitVec 32) (atStatus : ℕ → AtStatus) (id : BitVec 32)
    (d : Downlink) : Prop where
  online : (d.view id).Online
  fifo : Fifo (d.view id)
  saving : Saving appId atStatus d.gateway

theorem frameDone_log (g : Gateway) (tlen : ℕ) :
    (g.frameDone appId atStatus tlen).eth.log = (g.eth.take appId atStatus tlen).log := by
  unfold Gateway.frameDone
  dsimp only
  split_ifs
  · rfl
  · exact log_settle_flush _

theorem frameDone_saving (g : Gateway) (tlen : ℕ) :
    Saving appId atStatus (g.frameDone appId atStatus tlen) := by
  unfold Gateway.frameDone
  dsimp only
  split_ifs <;> exact fun _ h => by cases h

/-- A frame that is not for a Cbox adds nothing. -/
theorem bytesFor_take {s : State} {tlen : ℕ} {id : BitVec 32}
    (h : target appId (StPackCmd.ofBytes s.buf) (atStatus s.offset) ≠ .recvServerData) :
    bytesFor id (s.take appId atStatus tlen).log = bytesFor id s.log := by
  unfold State.take bytesFor
  rw [List.flatMap_append, List.flatMap_singleton, Dispatch.bytesFor, if_neg fun h' => h h'.1,
    List.append_nil]

theorem parse_saving (g : Gateway) : Saving appId atStatus (g.parse appId atStatus) := by
  unfold Gateway.parse
  rcases hpass : g.eth.pass with ⟨s1, - | tlen⟩
  · exact fun _ h => by cases h
  · dsimp only
    split
    · rename_i htarget
      intro n hn
      injection hn with hn
      subst hn
      exact ⟨(pass_some hpass).2.1, htarget⟩
    · exact frameDone_saving _ _

theorem parse_bytesFor (g : Gateway) (id : BitVec 32) :
    bytesFor id (g.parse appId atStatus).eth.log = bytesFor id g.eth.log := by
  have hlog := log_pass g.eth
  unfold Gateway.parse
  rcases hpass : g.eth.pass with ⟨s1, - | tlen⟩
  · rw [hpass] at hlog
    dsimp only
    rw [log_settle_flush]
    exact congrArg _ hlog
  · rw [hpass] at hlog
    dsimp only at hlog ⊢
    split
    · exact congrArg _ hlog
    · rename_i htarget
      rw [frameDone_log, bytesFor_take htarget]
      exact congrArg _ hlog

theorem ofBytes_readN {n : ℕ} (h : 8 ≤ n) (buf : List Byte) :
    StPackCmd.ofBytes (readN buf n) = StPackCmd.ofBytes buf := by
  have hget : ∀ k < 8, (readN buf n).getD k 0 = buf.getD k 0 := by
    intro k hk
    rw [List.getD_eq_getElem _ _ (by rw [length_readN]; omega)]
    simp [readN]
  unfold StPackCmd.ofBytes u32At u16At
  rw [hget 0 (by omega), hget 1 (by omega), hget (2 + 2 + 1) (by omega), hget (2 + 2) (by omega),
    hget (2 + 1) (by omega), hget 2 (by omega), hget (6 + 1) (by omega), hget 6 (by omega)]

/-- The frames of a stream. -/
theorem Stream.wellFormed {o : ℕ} {fs : List (ℕ × List Byte)} {bs : List Byte}
    (h : Stream o fs bs) : ∀ x ∈ fs, WellFormed x.2 := by
  induction h with
  | nil => exact fun x hx => by cases hx
  | junk _ _ ih => exact ih
  | frame hf _ ih =>
    intro x hx
    rcases List.mem_cons.1 hx with rfl | hx
    · exact hf
    · exact ih x hx

/-- The frame that is to be saved is one of the stream. -/
theorem Fed.saving {fs : List (ℕ × List Byte)} {g : Gateway} {future : List Byte} {tlen : ℕ}
    (hwell : ∀ x ∈ fs, WellFormed x.2) (h : Fed appId atStatus fs g future)
    (hstage : g.stage = .save tlen) : WellFormed (readN g.eth.buf tlen) := by
  obtain ⟨l, done, rest, rfl, hl, -, hlog, -, -⟩ := h
  have hprefix : (g.eth.take appId atStatus tlen).log <+: (g.settled appId atStatus).log :=
    log_settled_save hstage
  rw [hl] at hprefix
  change _ <+: l.log at hprefix
  rw [hlog] at hprefix
  have hmem := hprefix.subset (List.mem_append_right g.eth.log (List.mem_singleton_self
    (⟨g.eth.offset, target appId (StPackCmd.ofBytes g.eth.buf) (atStatus g.eth.offset),
      readN g.eth.buf tlen⟩ : Dispatch)))
  obtain ⟨x, hx, heq⟩ := List.mem_map.1 hmem
  have hframe : x.2 = readN g.eth.buf tlen := congrArg Dispatch.frame heq
  rw [← hframe]
  exact hwell x (List.mem_append_left _ hx)

/-- A frame that leaves the buffer for `recvServerData`. -/
theorem bytesFor_save {s : State} {tlen : ℕ} {id : BitVec 32}
    (h : target appId (StPackCmd.ofBytes s.buf) (atStatus s.offset) = .recvServerData)
    (hten : 8 ≤ tlen) :
    bytesFor id (s.take appId atStatus tlen).log = bytesFor id s.log ++
      if (StPackCmd.ofBytes s.buf).id = id then readN s.buf tlen else [] := by
  unfold State.take bytesFor
  rw [List.flatMap_append, List.flatMap_singleton, Dispatch.bytesFor]
  by_cases hid : (StPackCmd.ofBytes s.buf).id = id
  · rw [if_pos hid, if_pos ⟨h, by rw [ofBytes_readN hten]; exact hid⟩]
  · rw [if_neg hid, if_neg fun h' => hid (by rw [← ofBytes_readN hten]; exact h'.2)]

/-- A try that does not give up does to the queues what `recvServerData` does. -/
theorem trySave_aboxInfo {s : System} {recv : List Byte} (h : ¬ s.Overflow recv) :
    (s.trySave recv).aboxInfo = (recvServerData s.aboxInfo recv).2 := by
  unfold System.trySave
  rcases recvServerData_cases s.aboxInfo recv with ⟨heq, hno⟩ | ⟨-, heq, -⟩ | ⟨-, i, s', heq, -⟩
  · rw [heq]
    dsimp only
    rw [if_neg fun hlt => h ⟨hno, hlt⟩]
  · rw [heq]
  · rw [heq]

/-- The frame leaves the buffer exactly if `recvServerData` takes it. -/
theorem save_eq {g : Gateway} (tlen : ℕ)
    (h : ¬ (NoRoom g.subg.aboxInfo g.eth.buf ∧ 1000 < g.saveErr)) :
    (NoRoom g.subg.aboxInfo g.eth.buf ∧ (g.save appId atStatus tlen).eth = g.eth ∧
      (g.save appId atStatus tlen).stage = g.stage) ∨
    (¬ NoRoom g.subg.aboxInfo g.eth.buf ∧
      ∃ g' : Gateway, g'.eth = g.eth ∧
        g.save appId atStatus tlen = g'.frameDone appId atStatus tlen) := by
  unfold Gateway.save System.trySave
  rcases recvServerData_cases g.subg.aboxInfo g.eth.buf with
    ⟨heq, hno⟩ | ⟨hno, heq, -⟩ | ⟨hno, i, s', heq, -⟩
  · left
    dsimp only
    rw [heq]
    dsimp only
    rw [if_neg fun hlt => h ⟨hno, hlt⟩]
    exact ⟨hno, rfl, rfl⟩
  · right
    dsimp only
    rw [heq]
    exact ⟨hno, g, rfl, rfl⟩
  · right
    dsimp only
    rw [heq]
    exact ⟨hno, { g with subg := { g.subg with aboxInfo := s' } }, rfl, rfl⟩

theorem save_saving {g : Gateway} {tlen : ℕ} (hg : Saving appId atStatus g)
    (h : ¬ (NoRoom g.subg.aboxInfo g.eth.buf ∧ 1000 < g.saveErr)) :
    Saving appId atStatus (g.save appId atStatus tlen) := by
  rcases save_eq tlen h with ⟨-, heth, hstage⟩ | ⟨-, g', -, heq⟩
  · unfold Saving
    rw [heth, hstage]
    exact hg
  · rw [heq]
    exact frameDone_saving _ _

/-- The bytes that leave the buffer for the Cbox are those that are accepted for it. -/
theorem save_bytesFor {g : Gateway} {tlen k : ℕ} {id : BitVec 32} (hg : Saving appId atStatus g)
    (hstage : g.stage = .save tlen) (hten : 8 ≤ tlen)
    (hid : (g.subg.aboxInfo.cboxInfo k).modId = id)
    (h : ¬ (NoRoom g.subg.aboxInfo g.eth.buf ∧ 1000 < g.saveErr)) :
    bytesFor id (g.save appId atStatus tlen).eth.log = bytesFor id g.eth.log ++
      acceptedBytes g.subg k (.recvServerData g.eth.buf) := by
  obtain ⟨htlen, htarget⟩ := hg tlen hstage
  unfold acceptedBytes
  dsimp only
  rcases save_eq tlen h with ⟨hno, heth, -⟩ | ⟨hno, g', heth, heq⟩
  · rw [heth, if_neg fun hacc => (accepts_iff.1 hacc).2 hno, List.append_nil]
  · rw [heq, frameDone_log, heth, bytesFor_save htarget hten, ← htlen]
    refine congrArg _ (if_congr ?_ rfl rfl)
    rw [accepts_iff, hid]
    exact (and_iff_left hno).symm

/-- One try to save a frame: it stays in the buffer, or it leaves it. -/
theorem Downlink.Inv.save {d : Downlink} {id : BitVec 32} {tlen : ℕ}
    (hd : d.Inv appId atStatus id) (hstage : d.gateway.stage = .save tlen)
    (hten : 8 ≤ tlen) (hok : d.Ok id .recvServerData) :
    Downlink.Inv appId atStatus id
      { d with gateway := d.gateway.save appId atStatus tlen } := by
  obtain ⟨hid, hlossless, hroom⟩ := hok
  let v : CboxView :=
    { subg := { d.gateway.subg with
        aboxInfo := (recvServerData d.gateway.subg.aboxInfo d.gateway.eth.buf).2 }
      cboxIndex := d.cboxIndex
      acked := d.acked ++ []
      accepted := bytesFor id d.gateway.eth.log ++
        acceptedBytes d.gateway.subg d.cboxIndex (.recvServerData d.gateway.eth.buf) }
  have hstep : (d.view id).Step (.recvServerData d.gateway.eth.buf) v := ⟨0, rfl⟩
  have hview : Downlink.view id { d with gateway := d.gateway.save appId atStatus tlen } = v := by
    unfold Downlink.view
    dsimp only
    rw [save_subg, save_bytesFor hd.saving hstage hten hid hroom,
      trySave_aboxInfo (s := ⟨_, _, _⟩) hroom, ← List.append_nil d.acked]
  refine ⟨?_, ?_, save_saving hd.saving hroom⟩
  · rw [hview]
    exact hd.online.step hstep
  · rw [hview]
    exact (fifo_step_iff hd.online hd.fifo hstep).2 hlossless

/-- The step of a view, without the fuel. -/
theorem Downlink.Step.eq {d d' : Downlink} {a : Act} (h : d.Step appId atStatus a d') :
    (∀ e, radioEvent d.gateway a = some e → e.keeps d.cboxIndex = true) ∧
      d.gateway.Step appId atStatus a d'.gateway ∧
      d'.cboxIndex = (radioEvent d.gateway a).elim d.cboxIndex (slotAfterEvent d.cboxIndex) ∧
      d'.acked = d.acked ++
        (radioEvent d.gateway a).elim [] (ackedBytes d.gateway.subg d.cboxIndex) := by
  obtain ⟨fuel, h⟩ := h
  unfold Downlink.step at h
  dsimp only at h
  rw [Option.ite_none_right_eq_some] at h
  obtain ⟨hkeeps, h⟩ := h
  obtain ⟨g, hg, rfl⟩ := Option.map_eq_some_iff.1 h
  refine ⟨fun e he => ?_, ⟨fuel, hg⟩, rfl, rfl⟩
  rw [he] at hkeeps
  exact hkeeps

/-- Every step keeps the bytes of the Cbox in order. -/
theorem Downlink.Inv.step {fs : List (ℕ × List Byte)} {d d' : Downlink} {a : Act}
    {id : BitVec 32} {future : List Byte} (hwell : ∀ x ∈ fs, WellFormed x.2)
    (hfed : Fed appId atStatus fs d.gateway future) (hd : d.Inv appId atStatus id)
    (h : d.Step appId atStatus a d') (hok : d.Ok id a) : d'.Inv appId atStatus id := by
  obtain ⟨hkeeps, hg, hslot, hacked⟩ := h.eq
  obtain ⟨g', k', acked'⟩ := d'
  dsimp only at hg hslot hacked
  subst hslot hacked
  cases hg.effect with
  | @recv chunk =>
    have hview : Downlink.view id
        { gateway :=
            { d.gateway with eth := d.gateway.eth.append chunk, stage := .parse, saveErr := 0 }
          cboxIndex := d.cboxIndex
          acked := d.acked ++ [] } = d.view id := by
      unfold Downlink.view State.append
      dsimp only
      rw [List.append_nil]
    refine ⟨?_, ?_, fun _ hstage => by cases hstage⟩
    · exact hview ▸ hd.online
    · exact hview ▸ hd.fifo
  | parse =>
    have hview : Downlink.view id
        { gateway := d.gateway.parse appId atStatus
          cboxIndex := d.cboxIndex
          acked := d.acked ++ [] } = d.view id := by
      unfold Downlink.view
      dsimp only
      rw [parse_subg, parse_bytesFor, List.append_nil]
    refine ⟨?_, ?_, parse_saving _⟩
    · exact hview ▸ hd.online
    · exact hview ▸ hd.fifo
  | @recvServerData tlen hstage =>
    have hten := (hfed.saving hwell hstage).ten_le
    rw [length_readN] at hten
    have hsave := hd.save hstage (by omega) hok
    have hacked : d.acked ++ [] = d.acked := List.append_nil _
    show Downlink.Inv appId atStatus id
      { gateway := d.gateway.save appId atStatus tlen
        cboxIndex := d.cboxIndex
        acked := d.acked ++ [] }
    rw [hacked]
    exact hsave
  | @other e r he hr =>
    obtain ⟨fuel, hr⟩ := hr
    have hstep : (d.view id).Step e
        { subg := r
          cboxIndex := slotAfterEvent d.cboxIndex e
          acked := d.acked ++ ackedBytes d.gateway.subg d.cboxIndex e
          accepted := bytesFor id d.gateway.eth.log ++
            acceptedBytes d.gateway.subg d.cboxIndex e } := by
      have hkeep : e.keeps (d.view id).cboxIndex = true := hkeeps e rfl
      refine ⟨fuel, ?_⟩
      unfold CboxView.step
      rw [if_pos hkeep]
      show (d.gateway.subg.step fuel e).map _ = _
      rw [hr]
      rfl
    have hnone : acceptedBytes d.gateway.subg d.cboxIndex e = [] := by
      cases e with
      | recvServerData recv => exact absurd rfl (he recv)
      | traverseCbox => rfl
      | rxData a => rfl
      | recvTestPack2 cmd p_dev_id => rfl
      | removeCbox i => rfl
      | cleanCbox => rfl
      | cleanNext => rfl
    rw [hnone, List.append_nil] at hstep
    refine ⟨hd.online.step hstep, (fifo_step_iff hd.online hd.fifo hstep).2 hok, hd.saving⟩

/-! ## Runs -/

theorem Downlink.Inv.run {fs : List (ℕ × List Byte)} {d : Downlink} {tr : List (Act × Downlink)}
    {id : BitVec 32} {future : List Byte} (hwell : ∀ x ∈ fs, WellFormed x.2)
    (hp : Path (Downlink.Step appId atStatus) d tr)
    (hfed : Fed appId atStatus fs d.gateway (tr.flatMap (fun p => received p.1) ++ future))
    (hd : d.Inv appId atStatus id) (hok : AllSteps (Downlink.Ok id) d tr) :
    Fed appId atStatus fs (last d tr).gateway future ∧ (last d tr).Inv appId atStatus id := by
  induction hp with
  | nil d => exact ⟨hfed, hd⟩
  | @cons d d' a tr hs _ ih =>
    rw [List.flatMap_cons, List.append_assoc] at hfed
    exact ih (hfed.step hs.eq.2.1) (hd.step hwell hfed hs hok.1) hok.2

/-- A Cbox has registered, and nothing has been received on the connection. -/
structure Downlink.Start (d : Downlink) : Prop where
  eth : d.gateway.eth = State.empty
  stage : d.gateway.stage = .recv
  registered : Registered (d.view 0)

/-- Over every run of the receiving thread and the radio thread during which a Cbox stays online
    and nothing for it is lost, and for every cut of a stream of frames into chunks: the bytes
    that the Cbox has answered, then those that wait for it, are the frames for its id among
    the first frames of the stream, whole and in order, except those that an update discards.
    When the receiving thread waits again and the stream is over, these are all frames. -/
theorem downlink_delivers {fs : List (ℕ × List Byte)} {d : Downlink}
    {tr : List (Act × Downlink)} {id : BitVec 32} {future : List Byte} (hd : d.Start)
    (hp : Path (Downlink.Step appId atStatus) d tr)
    (hstream : Stream 0 fs (tr.flatMap (fun p => received p.1) ++ future))
    (hok : AllSteps (Downlink.Ok id) d tr) :
    ∃ done rest, fs = done ++ rest ∧
      (last d tr).acked ++ (last d tr).gateway.subg.waiting (last d tr).cboxIndex =
        bytesFor id (done.map (handled appId atStatus)) ∧
      ((last d tr).gateway.stage = .recv → future = [] → rest = []) := by
  have hlog : d.gateway.eth.log = [] := by rw [hd.eth]; rfl
  have hview : ∀ id, d.view id = d.view 0 := by
    intro id
    unfold Downlink.view
    rw [hlog]
    rfl
  have hinv : d.Inv appId atStatus id := by
    refine ⟨?_, ?_, fun tlen h => ?_⟩
    · rw [hview]
      exact hd.registered.online
    · rw [hview]
      exact hd.registered.fifo
    · rw [hd.stage] at h
      cases h
  have hfed : Fed appId atStatus fs d.gateway (tr.flatMap (fun p => received p.1) ++ future) := by
    refine ⟨⟨[], 0, []⟩, [], fs, rfl, ?_, Nat.zero_le _, rfl, hstream, fun hnil => ?_⟩
    · unfold Gateway.settled
      rw [hd.stage, hd.eth]
      rfl
    · rw [hnil] at hstream
      exact hstream.eq_nil_of_short (by decide)
  obtain ⟨⟨l, done, rest, rfl, hl, -, hdone, -, hend⟩, hlast⟩ :=
    hinv.run hstream.wellFormed hp hfed hok
  generalize last d tr = d' at hl hlast ⊢
  have hprefix : d'.gateway.eth.log <+: done.map (handled appId atStatus) := by
    have h : d'.gateway.eth.log <+: (d'.gateway.settled appId atStatus).log :=
      log_prefix_settled d'.gateway
    rw [hl] at h
    rw [← hdone]
    exact h
  have hfifo : d'.acked ++ d'.gateway.subg.waiting d'.cboxIndex =
    bytesFor id d'.gateway.eth.log := hlast.fifo
  have htake := List.prefix_iff_eq_take.1 hprefix
  refine ⟨done.take d'.gateway.eth.log.length, done.drop d'.gateway.eth.log.length ++ rest, ?_, ?_,
    fun hstage hnil => ?_⟩
  · rw [← List.append_assoc, List.take_append_drop]
  · rw [List.map_take, ← htake]
    exact hfifo
  · have hsettled : d'.gateway.eth = l.toState := by
      rw [← hl]
      unfold Gateway.settled
      rw [hstage]
    have hlength : d'.gateway.eth.log.length = done.length := by
      rw [hsettled, ← List.length_map (handled appId atStatus), ← hdone]
      rfl
    rw [hend hnil, hlength, List.drop_length]
    rfl

end

/-- A Cbox with the id 1 has registered. -/
def connected : Downlink := { gateway := registered, cboxIndex := 0, acked := [] }

theorem connected_start : connected.Start where
  eth := rfl
  stage := rfl
  registered := registered_cbox1

/-- A frame for the Cbox arrives and is saved. -/
def arrival : List (Act × Downlink) :=
  [(.recv frameTo1, { connected with
      gateway := { registered with eth := State.empty.append frameTo1, stage := .parse } }),
    (.parse, { connected with gateway := saving frameTo1 }),
    (.recvServerData, { connected with
      gateway := (saving frameTo1).save 0 (fun _ => .atFree) frameTo1.length })]

theorem arrival_path : Path (Downlink.Step 0 fun _ => .atFree) connected arrival := by
  have hlift : ∀ {g g' : Gateway} {a : Act}, g.Step 0 (fun _ => .atFree) a g' →
      (∀ e, a ≠ .other e) → Downlink.Step 0 (fun _ => .atFree)
        { connected with gateway := g } a { connected with gateway := g' } := by
    rintro g g' a ⟨fuel, hg⟩ ha
    refine ⟨fuel, ?_⟩
    unfold Downlink.step
    dsimp only
    rw [hg]
    cases a with
    | other e => exact absurd rfl (ha e)
    | recv chunk => rfl
    | parse => rfl
    | recvServerData => rfl
  cases frameTo1_frameTo1.path with
  | cons _ h =>
    cases h with
    | cons hrecv h =>
      cases h with
      | cons hparse h =>
        cases h with
        | cons hsave _ =>
          exact .cons (hlift hrecv nofun) (.cons (hlift hparse nofun)
            (.cons (hlift hsave nofun) (.nil _)))

/-- Another Cbox registers, and both are polled; the first answer is lost. -/
def polls : List Act :=
  [.other (.recvTestPack2 testCmd2 fun _ => 2), .other .traverseCbox, .other (.rxData noAnswer),
    .other (.rxData emptyAnswer), .other (.rxData emptyAnswer)]

theorem arrival_ok : AllSteps (Downlink.Ok 1) connected arrival := by
  refine ⟨trivial, trivial, ⟨by decide, fun _ _ _ => ⟨?_, by decide⟩, ?_⟩, trivial⟩
  · show registered.subg.aboxInfo.findCbox
      (StPackCmd.ofBytes (State.empty.append frameTo1).buf).id = some 0
    rw [ofBytes_append_buf]
    decide
  · rintro ⟨-, hlt⟩
    exact absurd hlt (by decide)

/-- A poll that has not failed ten times does not end with something unsent. -/
theorem polls_ok {d : Downlink} {a : Act} (ha : a ∈ polls)
    (h : ∀ p ∈ d.gateway.subg.poll, p.errTimes < 10) : Downlink.Ok 1 d a := by
  have hrx : ∀ answer, Downlink.Ok 1 d (.other (.rxData answer)) := by
    intro answer p hp _ _ herr
    have hfew := h p hp
    omega
  simp only [polls, List.mem_cons, List.not_mem_nil, or_false] at ha
  rcases ha with rfl | rfl | rfl | rfl | rfl
  · trivial
  · trivial
  · exact hrx _
  · exact hrx _
  · exact hrx _

/-- The frame is saved, sent twice, and answered. -/
theorem downlink_delivers_polls : ∃ tr,
    exec (Downlink.step 0 (fun _ => .atFree) 0) (last connected arrival) polls = some tr ∧
      (last connected (arrival ++ tr)).acked = frameTo1 ∧
      (last connected (arrival ++ tr)).acked ++
        (last connected (arrival ++ tr)).gateway.subg.waiting
          (last connected (arrival ++ tr)).cboxIndex = frameTo1 := by
  obtain ⟨tr, htr, hfew, hreceived, hrecv, hacked⟩ := exists_exec (P := fun tr =>
      AllSteps (fun d _ => ∀ p ∈ d.gateway.subg.poll, p.errTimes < 10) (last connected arrival) tr ∧
      tr.flatMap (fun p => received p.1) = [] ∧
      (last connected (arrival ++ tr)).gateway.stage = .recv ∧
      (last connected (arrival ++ tr)).acked = frameTo1)
    (show (exec (Downlink.step 0 (fun _ => .atFree) 0) (last connected arrival) polls).any _ = true
      by decide +kernel)
  have hpath : Path (Downlink.Step 0 fun _ => .atFree) (last connected arrival) tr :=
    exec_path (fun h => ⟨0, h⟩) htr
  have hlabels : AllSteps (fun _ a => a ∈ polls) (last connected arrival) tr :=
    exec_allSteps (fun _ ha _ => ha) htr
  have hok : AllSteps (Downlink.Ok 1) (last connected arrival) tr :=
    (allSteps_and.2 ⟨hlabels, hfew⟩).mono fun _ _ h => polls_ok h.1 h.2
  have hstream : Stream 0 [(0, frameTo1)]
      ((arrival ++ tr).flatMap (fun p => received p.1) ++ []) := by
    rw [List.flatMap_append, hreceived]
    exact stream_exampleFrame
  obtain ⟨done, rest, hfs, hdelivered, hend⟩ := downlink_delivers connected_start
    (path_append.2 ⟨arrival_path, hpath⟩) hstream (allSteps_append.2 ⟨arrival_ok, hok⟩)
  rw [hend hrecv rfl, List.append_nil] at hfs
  rw [← hfs] at hdelivered
  exact ⟨tr, htr, hacked, hdelivered.trans (by decide +kernel)⟩

end Abox.Server
