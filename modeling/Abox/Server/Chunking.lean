import Abox.Server.Scan

/-!
# Frames that arrive in pieces

The frames of a stream are handled one by one and in order, however the stream
is cut into chunks.

* `scan_stream`: the parser takes the frames that are complete, and no others.
* `chunking`: every chunking of a stream of frames gives the same frames.
-/

namespace Abox.Server

/-! ## Streams of frames -/

/-- A frame as the server sends it. -/
structure WellFormed (f : List Byte) : Prop where
  head : IsHead (f.getD 0 0)
  len_nonneg : 0 ≤ (StPackCmd.ofBytes f).len.toInt
  length_eq : (f.length : ℤ) = 10 + (StPackCmd.ofBytes f).len.toInt
  le_buffLen : f.length ≤ buffLen
  crc : ModbusCrc16 f = 0

/-- `Stream o fs bs`: the bytes `bs`, which arrive after `o` others, are the
    frames `fs` with other bytes between them. Each frame stands in `fs` with the
    number of bytes before it. -/
inductive Stream : ℕ → List (ℕ × List Byte) → List Byte → Prop
  | nil (o : ℕ) : Stream o [] []
  | junk {o : ℕ} {fs : List (ℕ × List Byte)} {b : Byte} {bs : List Byte} :
    ¬ IsHead b → Stream (o + 1) fs bs → Stream o fs (b :: bs)
  | frame {o : ℕ} {fs : List (ℕ × List Byte)} {f bs : List Byte} :
    WellFormed f → Stream (o + f.length) fs bs → Stream o ((o, f) :: fs) (f ++ bs)

theorem WellFormed.ten_le {f : List Byte} (h : WellFormed f) : 10 ≤ f.length := by
  have h1 := h.len_nonneg
  have h2 := h.length_eq
  omega

theorem WellFormed.claimedLen_eq {f : List Byte} (h : WellFormed f) :
    claimedLen f = f.length := by
  have h1 := h.len_nonneg
  have h2 := h.length_eq
  have h3 := h.le_buffLen
  have hint : (StPackCmd.ofBytes f).len.toInt = (StPackCmd.ofBytes f).len.toNat :=
    BitVec.toInt_eq_toNat_of_lt (by
      by_contra hlt
      rw [BitVec.toInt_eq_toNat_cond, if_neg hlt] at h1
      have := (StPackCmd.ofBytes f).len.isLt
      omega)
  have h10 : (10 : BitVec 16).toNat = 10 := rfl
  have hbuf : buffLen = 1024 := rfl
  unfold claimedLen StPackCmd.frameLen
  rw [BitVec.toNat_add, h10]
  omega

/-- A complete frame is taken. -/
theorem WellFormed.verdict_eq {f : List Byte} (h : WellFormed f) (rest : List Byte) :
    verdict (f ++ rest) = .frame f.length := by
  have hne : f ≠ [] := by
    rintro rfl
    exact absurd h.ten_le (by decide)
  have hself : verdict f = .frame f.length := by
    rw [verdict, if_neg hne, if_neg (not_not.2 h.head), h.claimedLen_eq,
      if_neg (Nat.lt_irrefl _), List.take_length, if_pos h.crc]
  rw [verdict_append rest (by rw [hself]; simp), hself]

/-- A part of a frame waits for the rest. -/
theorem WellFormed.verdict_eq_wait {data rest : List Byte} (h : WellFormed (data ++ rest))
    (hrest : rest ≠ []) : verdict data = .wait := by
  by_contra hne
  have hwhole := h.verdict_eq []
  rw [List.append_nil, verdict_append rest hne] at hwhole
  have hle := (verdict_eq_frame hwhole).2.2
  rw [List.length_append] at hle
  have := List.length_pos_iff.2 hrest
  omega

theorem Stream.eq_nil_of_short {o : ℕ} {fs : List (ℕ × List Byte)} {bs : List Byte}
    (h : Stream o fs bs) (hlen : bs.length < 10) : fs = [] := by
  induction h with
  | nil => rfl
  | junk _ _ ih =>
    apply ih
    rw [List.length_cons] at hlen
    omega
  | frame hf _ _ =>
    have := hf.ten_le
    rw [List.length_append] at hlen
    omega

/-- What can be at the front of the bytes that have arrived of a stream: a byte
    to skip, a complete frame, or a part of one. -/
inductive Front (o : ℕ) (future : List Byte) : List (ℕ × List Byte) → List Byte → Prop
  | junk {fs : List (ℕ × List Byte)} {data : List Byte} : verdict data = .junk →
    Stream (o + 1) fs (data.drop 1 ++ future) → Front o future fs data
  | frame {fs : List (ℕ × List Byte)} {f rest : List Byte} : WellFormed f →
    Stream (o + f.length) fs (rest ++ future) → Front o future ((o, f) :: fs) (f ++ rest)
  | part {fs : List (ℕ × List Byte)} {data : List Byte} : verdict data = .wait →
    data.length < buffLen → future ≠ [] → Front o future fs data

theorem Stream.front {o : ℕ} {fs : List (ℕ × List Byte)} {data future : List Byte}
    (h : Stream o fs (data ++ future)) (hne : data ≠ []) : Front o future fs data := by
  generalize hbs : data ++ future = bs at h
  cases h with
  | nil => exact absurd (List.append_eq_nil_iff.1 hbs).1 hne
  | @junk _ _ b bs hb hs =>
    obtain ⟨c, data, rfl⟩ := List.exists_cons_of_ne_nil hne
    injection hbs with h1 h2
    subst h1 h2
    refine .junk ?_ hs
    have hb' : ¬ IsHead ((c :: data).getD 0 0) := hb
    rw [verdict, if_neg hne, if_pos hb']
  | @frame _ fs f bs hf hs =>
    rcases List.append_eq_append_iff.1 hbs with ⟨rest, hrest, hfut⟩ | ⟨rest, hrest, hfut⟩
    · -- the frame goes on in the bytes to come, or ends with the data
      by_cases hnil : rest = []
      · subst hnil
        rw [List.append_nil] at hrest
        subst hrest hfut
        have hfront : Front o _ ((o, f) :: fs) (f ++ []) := .frame hf hs
        rwa [List.append_nil] at hfront
      · subst hrest
        refine .part (hf.verdict_eq_wait hnil) ?_ ?_
        · have h1 := hf.le_buffLen
          have h2 := List.length_pos_iff.2 hnil
          rw [List.length_append] at h1
          omega
        · rw [hfut]
          exact List.append_ne_nil_of_left_ne_nil hnil _
    · subst hrest hfut
      exact .frame hf hs

section

variable (appId : BitVec 32) (atStatus : ℕ → AtStatus)

/-- How a frame of a stream is handled. -/
def handled (x : ℕ × List Byte) : Dispatch :=
  ⟨x.1, target appId (StPackCmd.ofBytes x.2) (atStatus x.1), x.2⟩

/-- A frame at the front is taken whole. -/
theorem take_of_frame {l : Live} {f rest : List Byte} (hdata : l.data = f ++ rest)
    (hten : 10 ≤ f.length) : l.take appId atStatus f.length =
      ⟨rest, l.offset + f.length, l.log ++ [handled appId atStatus (l.offset, f)]⟩ := by
  have hheader : StPackCmd.ofBytes (f ++ rest) = StPackCmd.ofBytes f :=
    ofBytes_append (le_trans (by decide) hten) rest
  unfold Live.take handled
  rw [hdata, List.drop_left, List.take_left, hheader]

/-- Where the scan stops, less than a buffer is left, and all of it if the stream is over. -/
theorem Stream.stops {l : Live} {fs : List (ℕ × List Byte)} {future : List Byte}
    (h : Stream l.offset fs (l.data ++ future)) (hv : Stops l.data) :
    l.data.length < buffLen ∧ (future = [] → fs = []) := by
  by_cases hne : l.data = []
  · rw [hne]
    refine ⟨by decide, fun hnil => ?_⟩
    rw [hne, hnil] at h
    exact h.eq_nil_of_short (by decide)
  · have hfront := h.front hne
    generalize l.data = data at hfront hv
    cases hfront with
    | junk hj _ => rcases hv with hv | hv <;> cases hv.symm.trans hj
    | frame hf _ => rcases hv with hv | hv <;> cases hv.symm.trans (hf.verdict_eq _)
    | part _ hlen hfut => exact ⟨hlen, fun hnil => absurd hnil hfut⟩

/-- The parser takes the frames that are complete, and no others. -/
theorem scan_stream {l : Live} {fs : List (ℕ × List Byte)} {future : List Byte}
    (h : Stream l.offset fs (l.data ++ future)) :
    ∃ done rest, fs = done ++ rest ∧
      (l.scan appId atStatus).log = l.log ++ done.map (handled appId atStatus) ∧
      Stream (l.scan appId atStatus).offset rest ((l.scan appId atStatus).data ++ future) ∧
      (l.scan appId atStatus).data.length < buffLen ∧ (future = [] → rest = []) := by
  induction l using scan_induct appId atStatus generalizing fs with
  | junk l hv ih =>
    rw [scan_of_junk hv]
    have hfront := h.front (List.length_pos_iff.1 (verdict_eq_junk hv))
    generalize hdata : l.data = data at hfront
    rw [hdata] at hv
    cases hfront with
    | junk _ hs =>
      rw [← hdata] at hs
      exact ih hs
    | frame hf _ => cases hv.symm.trans (hf.verdict_eq _)
    | part hw _ _ => cases hv.symm.trans hw
  | frame l len hv ih =>
    have hpos := verdict_eq_frame hv
    have hfront := h.front (List.length_pos_iff.1 (Nat.lt_of_lt_of_le hpos.2.1 hpos.2.2))
    generalize hdata : l.data = data at hfront
    have hv' := hv
    rw [hdata] at hv'
    cases hfront with
    | junk hj _ => cases hv'.symm.trans hj
    | part hw _ _ => cases hv'.symm.trans hw
    | @frame fs f rest hf hs =>
      cases hv'.symm.trans (hf.verdict_eq rest)
      rw [scan_of_frame hv]
      rw [take_of_frame appId atStatus hdata hf.ten_le] at ih ⊢
      by_cases h10 : 10 ≤ rest.length
      · rw [if_pos h10]
        obtain ⟨done, rest', rfl, hlog, hstream, hlen, hend⟩ := ih h10 hs
        refine ⟨(l.offset, f) :: done, rest', rfl, ?_, hstream, hlen, hend⟩
        rw [hlog, List.map_cons, List.append_assoc]
        rfl
      · rw [if_neg h10]
        refine ⟨[(l.offset, f)], fs, rfl, rfl, hs, ?_, fun hnil => ?_⟩
        · show rest.length < 1024
          omega
        · rw [hnil, List.append_nil] at hs
          exact hs.eq_nil_of_short (Nat.lt_of_not_le h10)
  | stops l hv =>
    rw [scan_of_stops hv]
    exact ⟨[], fs, rfl, (List.append_nil _).symm, h, h.stops hv⟩

/-! ## Chunks -/

/-- The bytes after the given chunks. -/
def Live.recvAll (l : Live) (chunks : List (List Byte)) : Live :=
  chunks.foldl (Live.recv appId atStatus) l

/-- A chunk of a stream of frames never fills the buffer. -/
theorem recv_stream {l : Live} {fs : List (ℕ × List Byte)} {chunk future : List Byte}
    (h : Stream l.offset fs (l.data ++ (chunk ++ future))) :
    ∃ done rest, fs = done ++ rest ∧
      (l.recv appId atStatus chunk).log = l.log ++ done.map (handled appId atStatus) ∧
      Stream (l.recv appId atStatus chunk).offset rest
        ((l.recv appId atStatus chunk).data ++ future) ∧ (future = [] → rest = []) := by
  rw [← List.append_assoc] at h
  obtain ⟨done, rest, hfs, hlog, hstream, hlen, hend⟩ :=
    scan_stream appId atStatus (l := { l with data := l.data ++ chunk }) h
  have hrecv : l.recv appId atStatus chunk =
      Live.scan appId atStatus { l with data := l.data ++ chunk } :=
    if_neg (Nat.not_lt.2 (Nat.le_of_lt hlen))
  rw [hrecv]
  exact ⟨done, rest, hfs, hlog, hstream, hend⟩

theorem recvAll_stream {l : Live} {fs : List (ℕ × List Byte)} {chunks : List (List Byte)}
    (h : Stream l.offset fs (l.data ++ chunks.flatten)) (hend : chunks = [] → fs = []) :
    (l.recvAll appId atStatus chunks).log = l.log ++ fs.map (handled appId atStatus) := by
  induction chunks generalizing l fs with
  | nil =>
    rw [hend rfl]
    exact (List.append_nil _).symm
  | cons chunk chunks ih =>
    rw [List.flatten_cons] at h
    obtain ⟨done, rest, rfl, hlog, hstream, hrest⟩ := recv_stream appId atStatus h
    show ((l.recv appId atStatus chunk).recvAll appId atStatus chunks).log = _
    rw [ih hstream fun hnil => hrest (by rw [hnil]; rfl), hlog, List.map_append, List.append_assoc]

/-! ## The buffer -/

theorem length_recv_le (l : Live) (chunk : List Byte) :
    (l.recv appId atStatus chunk).data.length ≤ buffLen := by
  unfold Live.recv Live.flush
  generalize Live.scan appId atStatus { l with data := l.data ++ chunk } = l'
  by_cases h : buffLen < l'.data.length
  · simp only [if_pos h]
    exact Nat.zero_le _
  · simp only [if_neg h]
    exact Nat.le_of_not_lt h

theorem length_recvAll_le {l : Live} (h : l.data.length ≤ buffLen) (chunks : List (List Byte)) :
    (l.recvAll appId atStatus chunks).data.length ≤ buffLen := by
  induction chunks generalizing l with
  | nil => exact h
  | cons chunk chunks ih => exact ih (length_recv_le appId atStatus l chunk)

/-- On the buffer the calls do what they do on the bytes. -/
theorem recvAll_toState {l : Live} {chunks : List (List Byte)} (h : l.data.length ≤ buffLen)
    (hfit : Fits appId atStatus l.toState chunks) :
    l.toState.recvAll appId atStatus chunks = (l.recvAll appId atStatus chunks).toState := by
  have hbuf : buffLen ≤ sizeofEthRevBuff := by decide
  induction chunks generalizing l with
  | nil => rfl
  | cons chunk chunks ih =>
    obtain ⟨-, hlen, hrest⟩ := hfit
    have hrecv := recv_toState appId atStatus hlen (le_trans h hbuf)
    rw [hrecv] at hrest
    show (l.toState.recv appId atStatus chunk).recvAll appId atStatus chunks = _
    rw [hrecv]
    exact ih (length_recv_le appId atStatus l chunk) hrest

theorem Fits.take {s : State} {chunks : List (List Byte)} (h : Fits appId atStatus s chunks)
    (n : ℕ) : Fits appId atStatus s (chunks.take n) := by
  induction chunks generalizing s n with
  | nil =>
    rw [List.take_nil]
    trivial
  | cons chunk chunks ih =>
    cases n with
    | zero => trivial
    | succ n => exact ⟨h.1, h.2.1, ih h.2.2 n⟩

/-- However a stream of frames is cut into chunks, the frames are handled one by
    one, byte for byte and in order: those for the device go to `mq_send`, the
    others to `recvServerData`, except while an update is running. After every
    call there are at most `BUFF_LEN` bytes in the buffer and zeros behind them. -/
theorem chunking {fs : List (ℕ × List Byte)} {stream : List Byte} {chunks : List (List Byte)}
    (hstream : Stream 0 fs stream) (hsplit : chunks.flatten = stream)
    (hfit : Fits appId atStatus .empty chunks) :
    (State.empty.recvAll appId atStatus chunks).log = fs.map (handled appId atStatus) ∧
      ∀ n, (State.empty.recvAll appId atStatus (chunks.take n)).recvLen ≤ buffLen ∧
        (State.empty.recvAll appId atStatus (chunks.take n)).buf.length = sizeofEthRevBuff ∧
        ∀ k, (State.empty.recvAll appId atStatus (chunks.take n)).recvLen ≤ k →
          (State.empty.recvAll appId atStatus (chunks.take n)).buf.getD k 0 = 0 := by
  have hempty : (Live.mk [] 0 []).toState = State.empty := rfl
  have hzero : (Live.mk [] 0 []).data.length ≤ buffLen := Nat.zero_le _
  have hbuf : buffLen ≤ sizeofEthRevBuff := by decide
  constructor
  · rw [← hempty, recvAll_toState appId atStatus hzero hfit]
    subst hsplit
    refine recvAll_stream appId atStatus (l := ⟨[], 0, []⟩) hstream ?_
    rintro rfl
    exact hstream.eq_nil_of_short (by decide)
  · intro n
    have hlen := length_recvAll_le appId atStatus hzero (chunks.take n)
    rw [← hempty, recvAll_toState appId atStatus hzero (hfit.take appId atStatus n)]
    generalize (Live.mk [] 0 []).recvAll appId atStatus (chunks.take n) = l at hlen
    refine ⟨hlen, ?_, fun k hk => ?_⟩
    · show (l.data ++ List.replicate (sizeofEthRevBuff - l.data.length) 0).length = _
      rw [List.length_append, List.length_replicate]
      omega
    · show (l.data ++ List.replicate _ 0).getD k 0 = 0
      rw [getD_pad]
      exact List.getD_eq_default _ _ hk

end

/-- The frames that `mq_send` or `recvServerData` was called with. -/
def State.dispatched (s : State) : List (List Byte) :=
  (s.log.filter fun d => d.target ≠ .discarded).map Dispatch.frame

/-- A frame for the device 1 without contents. -/
def exampleFrame : List Byte := [0x23, 0x20, 1, 0, 0, 0, 0, 0, 0x22, 0x15]

theorem wellFormed_exampleFrame : WellFormed exampleFrame :=
  ⟨by decide, by decide, by decide, by decide, by decide +kernel⟩

theorem stream_exampleFrame : Stream 0 [(0, exampleFrame)] exampleFrame := by
  have h := Stream.frame (o := 0) wellFormed_exampleFrame (Stream.nil _)
  rwa [List.append_nil] at h

/-- The frame arrives although its header is cut in two. -/
theorem chunking_two_chunks :
    (State.empty.recvAll 1 (fun _ => .atFree) [exampleFrame.take 7, exampleFrame.drop 7]).log =
      [⟨0, .mqSend, exampleFrame⟩] := by
  have hfit : Fits 1 (fun _ => .atFree) .empty [exampleFrame.take 7, exampleFrame.drop 7] :=
    ⟨by decide, by decide, by decide, by decide +kernel, trivial⟩
  exact (chunking 1 (fun _ => .atFree) stream_exampleFrame (by rfl) hfit).1

/-- While an update is running, a frame for another device is not dispatched. -/
theorem frame_lost_in_update :
    Stream 0 [(0, exampleFrame)] exampleFrame ∧
      Fits 2 (fun _ => .atSerUpdata) .empty [exampleFrame] ∧
      (State.empty.recvAll 2 (fun _ => .atSerUpdata) [exampleFrame]).dispatched = [] :=
  ⟨stream_exampleFrame, ⟨by decide, by decide, trivial⟩, by decide +kernel⟩

end Abox.Server
