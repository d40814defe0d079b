import Abox.Server.Chunking

/-!
# One connection after the other

`Eth_Rev_Buff` and `Eth_recv_len` are globals. Neither `exitEthStatus` nor
`entryEthStatus` (`Abox/src/client.c` lines 522–545) touches them, and `ethChat`
appends to whatever is there: bytes of the last connection stand in front of
those of the next one.

* `isolation_iff`: the frames of a connection depend on its bytes only, exactly
  if none of the bytes left over can start a frame.
* `glued_frame`: a single byte left over, and the first frame is lost.
-/

namespace Abox.Server

/-! ## Connections -/

/-- `exitEthStatus` and `entryEthStatus`: the buffer stays as it is. Offsets are
    counted anew, such that the first byte of the new connection has the number
    `sizeof(Eth_Rev_Buff)`. -/
def State.reconnect (s : State) : State :=
  { s with offset := sizeofEthRevBuff - s.recvLen, log := [] }

/-- What is received on a connection, and `Cdma_Info.AT_status` meanwhile. -/
structure Connection where
  atStatus : ℕ → AtStatus
  chunks : List (List Byte)

section

variable (appId : BitVec 32)

/-- The state in which the connection after `earlier` starts. -/
def afterConnections (earlier : List Connection) : State :=
  earlier.foldl (fun s c => (s.recvAll appId c.atStatus c.chunks).reconnect) State.empty.reconnect

/-- The chunks of each connection are such as `recv` can return. -/
def ConnectionsFit : State → List Connection → Prop
  | _, [] => True
  | s, c :: cs => Fits appId c.atStatus s c.chunks ∧
    ConnectionsFit (s.recvAll appId c.atStatus c.chunks).reconnect cs

/-- On a connection that starts in `s` the same frames are dispatched as on the
    first one ever. -/
def Isolated (s : State) : Prop :=
  ∀ atStatus chunks, Fits appId atStatus s chunks →
    Fits appId atStatus State.empty.reconnect chunks →
    (s.recvAll appId atStatus chunks).dispatched =
      (State.empty.reconnect.recvAll appId atStatus chunks).dispatched

end

/-- None of the bytes in the buffer can start a frame. -/
def NoHead (s : State) : Prop := ∀ k < s.recvLen, ¬ IsHead (s.buf.getD k 0)

/-! ## Bytes left over -/

/-- The bytes `data`, left over from an earlier connection. -/
def Live.residue (data : List Byte) : Live := ⟨data, sizeofEthRevBuff - data.length, []⟩

theorem noHead_residue {data : List Byte} :
    NoHead (Live.residue data).toState ↔ ∀ b ∈ data, ¬ IsHead b := by
  constructor
  · intro h b hb
    obtain ⟨k, hk, rfl⟩ := List.mem_iff_getElem.1 hb
    have := h k hk
    rwa [Live.toState, getD_pad, Live.residue, List.getD_eq_getElem _ _ hk] at this
  · intro h k hk
    have hk' : k < data.length := hk
    rw [Live.toState, getD_pad, Live.residue, List.getD_eq_getElem _ _ hk']
    exact h _ (List.getElem_mem hk')

section

variable (appId : BitVec 32) (atStatus : ℕ → AtStatus)

theorem foldl_residue {earlier : List Connection} {data : List Byte} (h : data.length ≤ buffLen)
    (hfit : ConnectionsFit appId (Live.residue data).toState earlier) :
    ∃ data', data'.length ≤ buffLen ∧
      earlier.foldl (fun s c => (s.recvAll appId c.atStatus c.chunks).reconnect)
        (Live.residue data).toState = (Live.residue data').toState := by
  induction earlier generalizing data with
  | nil => exact ⟨data, h, rfl⟩
  | cons c cs ih =>
    obtain ⟨hc, hcs⟩ := hfit
    have hlen := length_recvAll_le appId c.atStatus (l := Live.residue data) h c.chunks
    have hnext : ((Live.residue data).toState.recvAll appId c.atStatus c.chunks).reconnect =
        (Live.residue ((Live.residue data).recvAll appId c.atStatus c.chunks).data).toState := by
      rw [recvAll_toState appId c.atStatus (l := Live.residue data) h hc]
      rfl
    rw [hnext] at hcs
    rw [List.foldl_cons, hnext]
    exact ih hlen hcs

/-- A connection starts with some bytes of the earlier ones. -/
theorem afterConnections_residue {earlier : List Connection}
    (hfit : ConnectionsFit appId State.empty.reconnect earlier) :
    ∃ data, data.length ≤ buffLen ∧
      afterConnections appId earlier = (Live.residue data).toState := by
  have hempty : State.empty.reconnect = (Live.residue []).toState := rfl
  rw [hempty] at hfit
  unfold afterConnections
  rw [hempty]
  exact foldl_residue appId (Nat.zero_le _) hfit

/-- Bytes that start no frame are skipped. -/
theorem scan_noHead {l : Live} {junk : List Byte} (h : ∀ b ∈ junk, ¬ IsHead b) :
    Live.scan appId atStatus { l with data := junk ++ l.data } =
      Live.scan appId atStatus { l with offset := l.offset + junk.length } := by
  induction junk generalizing l with
  | nil => rfl
  | cons b junk ih =>
    have hb : ¬ IsHead ((b :: junk ++ l.data).getD 0 0) := h b List.mem_cons_self
    have hjunk : verdict (b :: junk ++ l.data) = .junk := by
      rw [verdict, if_neg (by simp), if_pos hb]
    rw [scan_of_junk (l := { l with data := b :: junk ++ l.data }) hjunk]
    have hih := ih (l := { l with offset := l.offset + 1 }) fun c hc =>
      h c (List.mem_cons_of_mem b hc)
    rw [List.length_cons, Nat.add_comm junk.length, ← Nat.add_assoc]
    exact hih

theorem recv_noHead {data : List Byte} (h : ∀ b ∈ data, ¬ IsHead b) (hlen : data.length ≤ buffLen)
    (chunk : List Byte) : (Live.residue data).recv appId atStatus chunk =
      (Live.residue []).recv appId atStatus chunk := by
  have hscan := scan_noHead appId atStatus
    (l := ⟨chunk, sizeofEthRevBuff - data.length, []⟩) h
  have hoffset : sizeofEthRevBuff - data.length + data.length = sizeofEthRevBuff - 0 := by
    have hbuf : buffLen ≤ sizeofEthRevBuff := by decide
    omega
  unfold Live.recv
  congr 1
  rw [hoffset] at hscan
  exact hscan

theorem isolated_of_noHead {data : List Byte} (h : ∀ b ∈ data, ¬ IsHead b)
    (hlen : data.length ≤ buffLen) : Isolated appId (Live.residue data).toState := by
  intro atStatus chunks hfit hfit'
  have hempty : State.empty.reconnect = (Live.residue []).toState := rfl
  rw [hempty] at hfit' ⊢
  rw [recvAll_toState appId atStatus (l := Live.residue data) hlen hfit,
    recvAll_toState appId atStatus (l := Live.residue []) (Nat.zero_le _) hfit']
  cases chunks with
  | nil => rfl
  | cons chunk chunks =>
    show (((Live.residue data).recv appId atStatus chunk).recvAll appId atStatus
      chunks).toState.dispatched = _
    rw [recv_noHead appId atStatus h hlen]
    rfl

/-! ## A byte that can start a frame -/

/-- The parser never takes a frame back. -/
theorem log_prefix_scan (l : Live) : l.log <+: (l.scan appId atStatus).log := by
  induction l using scan_induct appId atStatus with
  | junk l h ih =>
    rw [scan_of_junk h]
    exact ih
  | frame l len h ih =>
    have htake : l.log <+: (l.take appId atStatus len).log := List.prefix_append _ _
    rw [scan_of_frame h]
    split_ifs with h10
    · exact htake.trans (ih h10)
    · exact htake
  | stops l h =>
    rw [scan_of_stops h]

theorem log_flush (l : Live) : l.flush.log = l.log := by
  unfold Live.flush
  split_ifs <;> rfl

/-- Behind a byte that can start a frame the parser takes a frame from there, or
    none. -/
theorem log_scan_of_head {data : List Byte} (h : IsHead (data.getD 0 0)) (offset : ℕ) :
    (Live.scan appId atStatus ⟨data, offset, []⟩).log = [] ∨
      ∃ len d, len ≤ data.length ∧ d.frame = data.take len ∧
        d.target = target appId (StPackCmd.ofBytes data) (atStatus offset) ∧
        [d] <+: (Live.scan appId atStatus ⟨data, offset, []⟩).log := by
  rcases verdict_cases data with hv | ⟨len, hv⟩ | hv
  · have hspec := verdict_spec data
    rw [hv] at hspec
    cases hspec with
    | junk _ hjunk => exact absurd h hjunk
  · right
    refine ⟨len, ⟨offset, target appId (StPackCmd.ofBytes data) (atStatus offset),
      data.take len⟩, (verdict_eq_frame hv).2.2, rfl, rfl, ?_⟩
    rw [scan_of_frame (l := ⟨data, offset, []⟩) hv]
    split_ifs
    · exact log_prefix_scan appId atStatus (Live.take appId atStatus ⟨data, offset, []⟩ len)
    · exact List.prefix_refl _
  · left
    rw [scan_of_stops (l := ⟨data, offset, []⟩) hv]

theorem target_atFree (packcmd : StPackCmd) : target appId packcmd .atFree ≠ .discarded := by
  unfold target
  split_ifs <;> simp_all

/-- A frame of ten bytes, none of which can start a frame but the first. -/
structure Probe (f : List Byte) : Prop where
  wellFormed : WellFormed f
  length_eq : f.length = 10
  rest : ∀ k, 0 < k → k < 10 → f.getD k 0 ≠ f.getD 0 0

/-- If the bytes `data` are in front of a probe that is not among them, the
    probe is not the first frame. -/
theorem take_ne_probe {data f : List Byte} (hf : Probe f) (hne : data ≠ [])
    (hdata : data.take 10 ≠ f) {len : ℕ} (hlen : len ≤ (data ++ f).length) :
    (data ++ f).take len ≠ f := by
  intro htake
  have h10 : len = 10 := by
    rw [← hf.length_eq, ← htake, List.length_take, Nat.min_eq_left hlen]
  subst h10
  have hpos := List.length_pos_iff.2 hne
  by_cases hlong : 10 ≤ data.length
  · rw [List.take_append_of_le_length hlong] at htake
    exact hdata htake
  · -- the byte at `data.length` would be the first one of the probe
    apply hf.rest data.length hpos (by omega)
    conv_lhs => rw [← htake]
    have hf10 := hf.length_eq
    rw [List.getD_eq_getElem _ _ (by rw [List.length_take, List.length_append]; omega),
      List.getElem_take, List.getElem_append_right le_rfl, List.getD_eq_getElem _ _ (by omega)]
    simp only [Nat.sub_self]

/-- The bytes from the first one on that can start a frame. -/
theorem exists_head {data : List Byte} (h : ∃ b ∈ data, IsHead b) :
    ∃ junk tail, data = junk ++ tail ∧ (∀ b ∈ junk, ¬ IsHead b) ∧ tail ≠ [] ∧
      IsHead (tail.getD 0 0) := by
  induction data with
  | nil =>
    obtain ⟨b, hb, -⟩ := h
    cases hb
  | cons c data ih =>
    by_cases hc : IsHead c
    · exact ⟨[], c :: data, rfl, fun _ hb => absurd hb List.not_mem_nil,
        List.cons_ne_nil c data, hc⟩
    · obtain ⟨b, hb, hhead⟩ := h
      have hb' : b ∈ data := by
        rcases List.mem_cons.1 hb with rfl | hb
        · exact absurd hhead hc
        · exact hb
      obtain ⟨junk, tail, rfl, hjunk, htail⟩ := ih ⟨b, hb', hhead⟩
      refine ⟨c :: junk, tail, rfl, fun d hd => ?_, htail⟩
      rcases List.mem_cons.1 hd with rfl | hd
      · exact hc
      · exact hjunk d hd

/-- On the first connection ever a probe is the only frame. -/
theorem dispatched_probe {f : List Byte} (hf : Probe f) :
    ((Live.residue []).recvAll appId (fun _ => .atFree) [f]).toState.dispatched = [f] := by
  have hstream : Stream sizeofEthRevBuff [(sizeofEthRevBuff, f)] ([] ++ [f].flatten) := by
    have h := Stream.frame (o := sizeofEthRevBuff) hf.wellFormed (Stream.nil _)
    simpa using h
  have hlog := recvAll_stream appId (fun _ => .atFree) (l := Live.residue []) hstream
    fun h => by cases h
  unfold State.dispatched
  show List.map _ (List.filter _ ((Live.residue []).recvAll appId (fun _ => .atFree) [f]).log) = _
  rw [hlog]
  show List.map _ (List.filter _ [_]) = _
  have hd : (handled appId (fun _ => .atFree) (sizeofEthRevBuff, f)).target ≠ .discarded :=
    target_atFree appId _
  rw [List.filter_cons_of_pos (by simpa using hd)]
  rfl

/-- Behind bytes that can start a frame, a probe is not the only frame, unless it
    is what they begin with. -/
theorem dispatched_ne_probe {junk tail f : List Byte} (hjunk : ∀ b ∈ junk, ¬ IsHead b)
    (hne : tail ≠ []) (hhead : IsHead (tail.getD 0 0)) (hf : Probe f) (htail : tail.take 10 ≠ f) :
    ((Live.residue (junk ++ tail)).recvAll appId (fun _ => .atFree) [f]).toState.dispatched ≠
      [f] := by
  intro hdisp
  set offset := sizeofEthRevBuff - (junk ++ tail).length + junk.length with hoffset
  have hlog : ((Live.residue (junk ++ tail)).recvAll appId (fun _ => .atFree) [f]).log =
      (Live.scan appId (fun _ => .atFree) ⟨tail ++ f, offset, []⟩).log := by
    have hscan := scan_noHead appId (fun _ => .atFree)
      (l := ⟨tail ++ f, sizeofEthRevBuff - (junk ++ tail).length, []⟩) hjunk
    show (Live.flush _).log = _
    rw [log_flush, ← hscan, ← List.append_assoc]
    rfl
  have hfilter : List.map Dispatch.frame (List.filter (fun d => d.target ≠ .discarded)
      (Live.scan appId (fun _ => .atFree) ⟨tail ++ f, offset, []⟩).log) = [f] := by
    rw [← hlog]
    exact hdisp
  have hhead' : IsHead ((tail ++ f).getD 0 0) := by
    rwa [getD_append_of_lt (List.length_pos_iff.2 hne)]
  rcases log_scan_of_head appId (fun _ => .atFree) hhead' offset with
    hnil | ⟨len, d, hlen, hframe, htarget, more, hmore⟩
  · rw [hnil] at hfilter
    cases hfilter
  · have hd : d.target ≠ .discarded := by
      rw [htarget]
      exact target_atFree appId _
    rw [← hmore, List.singleton_append, List.filter_cons_of_pos (by simpa using hd),
      List.map_cons] at hfilter
    injection hfilter with hfirst
    rw [hframe] at hfirst
    exact take_ne_probe hf hne htail hlen hfirst

end

/-- A frame for the device 2 without contents. -/
def exampleFrame2 : List Byte := [0x23, 0x20, 2, 0, 0, 0, 0, 0, 0x22, 0x26]

theorem probe_exampleFrame : Probe exampleFrame :=
  ⟨wellFormed_exampleFrame, rfl, fun k h1 h2 => by interval_cases k <;> decide⟩

theorem probe_exampleFrame2 : Probe exampleFrame2 :=
  ⟨⟨by decide, by decide, by decide, by decide, by decide +kernel⟩, rfl,
    fun k h1 h2 => by interval_cases k <;> decide⟩

/-- Among the two frames one is not what the bytes begin with. -/
theorem exists_probe (tail : List Byte) : ∃ f, Probe f ∧ tail.take 10 ≠ f := by
  by_cases h : tail.take 10 = exampleFrame
  · refine ⟨exampleFrame2, probe_exampleFrame2, ?_⟩
    rw [h]
    decide
  · exact ⟨exampleFrame, probe_exampleFrame, h⟩

theorem isolated_residue_iff (appId : BitVec 32) {data : List Byte} (hlen : data.length ≤ buffLen) :
    Isolated appId (Live.residue data).toState ↔ ∀ b ∈ data, ¬ IsHead b := by
  refine ⟨fun h => ?_, fun h => isolated_of_noHead appId h hlen⟩
  by_contra hhead
  push Not at hhead
  obtain ⟨junk, tail, rfl, hjunk, hne, hhead⟩ := exists_head hhead
  obtain ⟨f, hf, htail⟩ := exists_probe tail
  have hfne : f ≠ [] := List.ne_nil_of_length_pos (by rw [hf.length_eq]; decide)
  have hbuf : buffLen + 10 ≤ sizeofEthRevBuff := by decide
  have hfits : ∀ data : List Byte, data.length ≤ buffLen →
      Fits appId (fun _ => .atFree) (Live.residue data).toState [f] := by
    intro data hdata
    refine ⟨hfne, ?_, trivial⟩
    show f.length ≤ sizeofEthRevBuff - data.length
    rw [hf.length_eq]
    omega
  have hsame := h (fun _ => .atFree) [f] (hfits _ hlen) (hfits [] (Nat.zero_le _))
  rw [recvAll_toState appId _ (l := Live.residue (junk ++ tail)) hlen (hfits _ hlen)] at hsame
  apply dispatched_ne_probe appId hjunk hne hhead hf htail
  rw [hsame]
  have hempty := recvAll_toState appId (fun _ => .atFree) (l := Live.residue [])
    (Nat.zero_le buffLen) (hfits [] (Nat.zero_le _))
  exact (congrArg State.dispatched hempty).trans (dispatched_probe appId hf)

/-- Whatever was received on earlier connections, the frames dispatched on the
    next one depend on its bytes only if and only if the earlier ones have left
    no byte in the buffer that can start a frame. -/
theorem isolation_iff {appId : BitVec 32} {earlier : List Connection}
    (hfit : ConnectionsFit appId State.empty.reconnect earlier) :
    Isolated appId (afterConnections appId earlier) ↔ NoHead (afterConnections appId earlier) := by
  obtain ⟨data, hlen, hdata⟩ := afterConnections_residue appId hfit
  rw [hdata, noHead_residue]
  exact isolated_residue_iff appId hlen

/-- A connection that ends with a complete frame leaves nothing behind. -/
theorem isolated_complete_frame :
    Isolated 1 (afterConnections 1 [⟨fun _ => .atFree, [exampleFrame]⟩]) := by
  have hfit : ConnectionsFit 1 State.empty.reconnect [⟨fun _ => .atFree, [exampleFrame]⟩] :=
    ⟨⟨by decide, by decide, trivial⟩, trivial⟩
  refine (isolation_iff hfit).2 fun k hk => ?_
  have hzero : (afterConnections 1 [⟨fun _ => .atFree, [exampleFrame]⟩]).recvLen = 0 := by
    decide +kernel
  omega

/-- The first byte of a frame is left over from the last connection. The only
    frame of the next one is glued to it, and is not dispatched. -/
theorem glued_frame :
    ConnectionsFit 1 State.empty.reconnect [⟨fun _ => .atFree, [[0x23]]⟩] ∧
    Fits 1 (fun _ => .atFree) (afterConnections 1 [⟨fun _ => .atFree, [[0x23]]⟩])
      [exampleFrame] ∧
    Fits 1 (fun _ => .atFree) State.empty.reconnect [exampleFrame] ∧
    ((afterConnections 1 [⟨fun _ => .atFree, [[0x23]]⟩]).recvAll 1 (fun _ => .atFree)
      [exampleFrame]).dispatched = [] ∧
    (State.empty.reconnect.recvAll 1 (fun _ => .atFree) [exampleFrame]).dispatched =
      [exampleFrame] := by
  refine ⟨⟨⟨by decide, by decide, trivial⟩, trivial⟩, ⟨by decide, by decide +kernel, trivial⟩,
    ⟨by decide, by decide, trivial⟩, ?_, ?_⟩
  · decide +kernel
  · decide +kernel

end Abox.Server
