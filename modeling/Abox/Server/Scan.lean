import Abox.Server.Tcp

/-!
# The received bytes

The buffer is the bytes received and not yet handled, padded with zeros. On
these bytes the parser takes one decision after the other.

* `scan_toState`: on the buffer the parser does what it does on the bytes.
* `verdict_append`: a decision other than to wait is not changed by what arrives
  later.
-/

namespace Abox.Server

/-! ## Decisions -/

/-- A decision: wait for more, skip a byte, take a frame of `len` bytes, or stop
    before a frame whose checksum is wrong. -/
inductive Verdict
  | wait
  | junk
  | frame (len : ℕ)
  | bad

/-- The length that the first header claims. -/
def claimedLen (data : List Byte) : ℕ := (StPackCmd.ofBytes data).frameLen

/-- The decision about the bytes `data`. -/
def verdict (data : List Byte) : Verdict :=
  if data = [] then .wait
  else if ¬ IsHead (data.getD 0 0) then .junk
  else if data.length < claimedLen data then .wait
  else if ModbusCrc16 (data.take (claimedLen data)) = 0 then .frame (claimedLen data)
  else .bad

/-- What each decision means for the bytes. -/
inductive VerdictSpec (data : List Byte) : Verdict → Prop
  | empty : data = [] → VerdictSpec data .wait
  | incomplete : IsHead (data.getD 0 0) → data.length < claimedLen data → VerdictSpec data .wait
  | junk : data ≠ [] → ¬ IsHead (data.getD 0 0) → VerdictSpec data .junk
  | frame : IsHead (data.getD 0 0) → claimedLen data ≤ data.length → 0 < claimedLen data →
    ModbusCrc16 (data.take (claimedLen data)) = 0 → VerdictSpec data (.frame (claimedLen data))
  | bad : IsHead (data.getD 0 0) → claimedLen data ≤ data.length →
    ModbusCrc16 (data.take (claimedLen data)) ≠ 0 → VerdictSpec data .bad

theorem verdict_spec (data : List Byte) : VerdictSpec data (verdict data) := by
  unfold verdict
  by_cases hnil : data = []
  · rw [if_pos hnil]
    exact .empty hnil
  rw [if_neg hnil]
  by_cases hhead : IsHead (data.getD 0 0)
  · rw [if_neg (not_not.2 hhead)]
    by_cases hlen : data.length < claimedLen data
    · rw [if_pos hlen]
      exact .incomplete hhead hlen
    rw [if_neg hlen]
    by_cases hcrc : ModbusCrc16 (data.take (claimedLen data)) = 0
    · rw [if_pos hcrc]
      refine .frame hhead (Nat.le_of_not_lt hlen) (Nat.pos_of_ne_zero fun h0 => ?_) hcrc
      rw [h0] at hcrc
      exact ModbusCrc16_nil data hcrc
    · rw [if_neg hcrc]
      exact .bad hhead (Nat.le_of_not_lt hlen) hcrc
  · rw [if_pos hhead]
    exact .junk hnil hhead

theorem verdict_eq_frame {data : List Byte} {len : ℕ} (h : verdict data = .frame len) :
    len = claimedLen data ∧ 0 < len ∧ len ≤ data.length := by
  have hspec := verdict_spec data
  rw [h] at hspec
  cases hspec with
  | frame _ hle hpos _ => exact ⟨rfl, hpos, hle⟩

theorem verdict_eq_junk {data : List Byte} (h : verdict data = .junk) : 0 < data.length := by
  have hspec := verdict_spec data
  rw [h] at hspec
  cases hspec with
  | junk hnil _ => exact List.length_pos_iff.2 hnil

/-! ## Later bytes -/

theorem getD_append_of_lt {data more : List Byte} {k : ℕ} (h : k < data.length) :
    (data ++ more).getD k 0 = data.getD k 0 := by
  rw [List.getD_append _ _ _ _ h]

/-- With fewer than 8 bytes the claimed length cannot be reached. -/
theorem lt_claimedLen {data : List Byte} (h : data.length < 8) : data.length < claimedLen data := by
  have h7 : data.getD 7 0 = 0 := List.getD_eq_default _ _ (by omega)
  have hlen : (StPackCmd.ofBytes data).len = ((0 : Byte) ++ data.getD 6 0 : BitVec (8 + 8)) :=
    congrArg (fun b : Byte => (b ++ data.getD 6 0 : BitVec (8 + 8))) h7
  have hnat : ((0 : Byte) ++ data.getD 6 0 : BitVec (8 + 8)).toNat = (data.getD 6 0).toNat := by
    rw [BitVec.toNat_append]
    simp
  have hbyte : (data.getD 6 0).toNat < 256 := (data.getD 6 0).isLt
  unfold claimedLen StPackCmd.frameLen
  rw [hlen, BitVec.toNat_add, hnat]
  have h10 : (10 : BitVec 16).toNat = 10 := rfl
  omega

/-- From 8 bytes on the header is complete. -/
theorem ofBytes_append {data : List Byte} (h : 8 ≤ data.length) (more : List Byte) :
    StPackCmd.ofBytes (data ++ more) = StPackCmd.ofBytes data := by
  unfold StPackCmd.ofBytes u32At u16At
  rw [getD_append_of_lt (by omega), getD_append_of_lt (by omega), getD_append_of_lt (by omega),
    getD_append_of_lt (by omega), getD_append_of_lt (by omega), getD_append_of_lt (by omega),
    getD_append_of_lt (by omega), getD_append_of_lt (by omega)]

theorem claimedLen_append {data : List Byte} (h : claimedLen data ≤ data.length)
    (more : List Byte) : claimedLen (data ++ more) = claimedLen data := by
  have h8 : 8 ≤ data.length := by
    by_contra hlt
    have := lt_claimedLen (Nat.lt_of_not_le hlt)
    omega
  unfold claimedLen
  rw [ofBytes_append h8]

/-- A decision other than to wait is final. -/
theorem verdict_append {data : List Byte} (more : List Byte) (h : verdict data ≠ .wait) :
    verdict (data ++ more) = verdict data := by
  have hnil : data ≠ [] := by
    rintro rfl
    exact h rfl
  have hhead : (data ++ more).getD 0 0 = data.getD 0 0 :=
    getD_append_of_lt (List.length_pos_iff.2 hnil)
  by_cases hjunk : IsHead (data.getD 0 0)
  · by_cases hlen : data.length < claimedLen data
    · exact absurd (by rw [verdict, if_neg hnil, if_neg (not_not.2 hjunk), if_pos hlen]) h
    · have hle := Nat.le_of_not_lt hlen
      have hle' : ¬ (data ++ more).length < claimedLen data := by
        rw [List.length_append]
        omega
      unfold verdict
      rw [claimedLen_append hle, hhead, List.take_append_of_le_length hle,
        if_neg (List.append_ne_nil_of_left_ne_nil hnil more), if_neg hnil, if_neg hle', if_neg hlen]
  · unfold verdict
    rw [hhead, if_neg (List.append_ne_nil_of_left_ne_nil hnil more), if_neg hnil, if_pos hjunk,
      if_pos hjunk]

/-! ## The parser on bytes -/

/-- The bytes in the buffer, with the rest of the state. -/
structure Live where
  data : List Byte
  offset : ℕ
  log : List Dispatch

/-- The buffer with the bytes in it. -/
def Live.toState (l : Live) : State :=
  { buf := l.data ++ List.replicate (sizeofEthRevBuff - l.data.length) 0
    recvLen := l.data.length
    offset := l.offset
    log := l.log }

/-- The first byte is skipped. -/
def Live.drop (l : Live) : Live := { l with data := l.data.drop 1, offset := l.offset + 1 }

section

variable (appId : BitVec 32) (atStatus : ℕ → AtStatus)

/-- The first `len` bytes are a frame. -/
def Live.take (l : Live) (len : ℕ) : Live :=
  { data := l.data.drop len
    offset := l.offset + len
    log := l.log ++ [⟨l.offset, target appId (StPackCmd.ofBytes l.data) (atStatus l.offset),
      l.data.take len⟩] }

/-- The parser: one decision after the other; after a frame, only if there are
    at least 10 bytes left. -/
def Live.scan (l : Live) : Live :=
  match _h : verdict l.data with
  | .junk => Live.scan l.drop
  | .frame len =>
    if 10 ≤ (l.take appId atStatus len).data.length then Live.scan (l.take appId atStatus len)
    else l.take appId atStatus len
  | _ => l
termination_by l.data.length
decreasing_by
  · have := verdict_eq_junk _h
    show (l.data.drop 1).length < l.data.length
    rw [List.length_drop]
    omega
  · obtain ⟨-, hpos, hle⟩ := verdict_eq_frame _h
    show (l.data.drop len).length < l.data.length
    rw [List.length_drop]
    omega

variable {appId atStatus} in
theorem scan_of_junk {l : Live} (h : verdict l.data = .junk) :
    l.scan appId atStatus = l.drop.scan appId atStatus := by
  rw [Live.scan]
  split
  · rfl
  · rename_i h'
    cases h.symm.trans h'
  · rename_i h' _
    exact absurd h h'

variable {appId atStatus} in
theorem scan_of_frame {l : Live} {len : ℕ} (h : verdict l.data = .frame len) :
    l.scan appId atStatus =
      if 10 ≤ (l.take appId atStatus len).data.length then
        (l.take appId atStatus len).scan appId atStatus
      else l.take appId atStatus len := by
  rw [Live.scan]
  split
  · rename_i h'
    cases h.symm.trans h'
  · rename_i h'
    cases h.symm.trans h'
    rfl
  · rename_i _ h'
    exact absurd h (h' len)

/-- The parser stops. -/
def Stops (data : List Byte) : Prop := verdict data = .wait ∨ verdict data = .bad

variable {appId atStatus} in
theorem scan_of_stops {l : Live} (h : Stops l.data) : l.scan appId atStatus = l := by
  rw [Live.scan]
  split
  · rename_i h'
    rcases h with h | h <;> cases h.symm.trans h'
  · rename_i h'
    rcases h with h | h <;> cases h.symm.trans h'
  · rfl

theorem verdict_cases (data : List Byte) :
    verdict data = .junk ∨ (∃ len, verdict data = .frame len) ∨ Stops data := by
  cases h : verdict data with
  | wait => exact Or.inr (Or.inr (Or.inl h))
  | junk => exact Or.inl rfl
  | frame len => exact Or.inr (Or.inl ⟨len, rfl⟩)
  | bad => exact Or.inr (Or.inr (Or.inr h))

/-- Induction along the parser. -/
theorem scan_induct {motive : Live → Prop}
    (junk : ∀ l : Live, verdict l.data = .junk → motive l.drop → motive l)
    (frame : ∀ (l : Live) (len : ℕ), verdict l.data = .frame len →
      (10 ≤ (l.take appId atStatus len).data.length → motive (l.take appId atStatus len)) →
      motive l)
    (stops : ∀ l : Live, Stops l.data → motive l) (l : Live) : motive l := by
  induction l using Live.scan.induct appId atStatus with
  | case1 l h ih => exact junk l h ih
  | case2 l len h h10 ih => exact frame l len h fun _ => ih
  | case3 l len h h10 => exact frame l len h fun h => absurd h h10
  | case4 l h1 h2 =>
    apply stops
    rcases verdict_cases l.data with h | ⟨len, h⟩ | h
    · exact absurd h h1
    · exact absurd h (h2 len)
    · exact h

theorem length_drop_le (l : Live) : l.drop.data.length ≤ l.data.length := by
  show (l.data.drop 1).length ≤ l.data.length
  rw [List.length_drop]
  omega

theorem length_take_le (l : Live) (len : ℕ) :
    (l.take appId atStatus len).data.length ≤ l.data.length := by
  show (l.data.drop len).length ≤ l.data.length
  rw [List.length_drop]
  omega

/-- More than `BUFF_LEN` bytes are thrown away. -/
def Live.flush (l : Live) : Live :=
  if buffLen < l.data.length then { l with data := [], offset := l.offset + l.data.length } else l

/-- What `recv` does to the bytes. -/
def Live.recv (l : Live) (chunk : List Byte) : Live :=
  (Live.scan appId atStatus { l with data := l.data ++ chunk }).flush

/-! ## The buffer and its bytes -/

theorem getD_pad (data : List Byte) (n k : ℕ) :
    (data ++ List.replicate n 0).getD k 0 = data.getD k 0 := by
  by_cases h : k < data.length
  · exact getD_append_of_lt h
  · have hle := Nat.le_of_not_lt h
    rw [List.getD_append_right _ _ _ _ hle, List.getD_eq_default data _ hle]
    by_cases hk : k - data.length < n
    · exact List.getD_replicate 0 hk
    · exact List.getD_eq_default _ _ (by rw [List.length_replicate]; omega)

theorem ofBytes_pad (data : List Byte) (n : ℕ) :
    StPackCmd.ofBytes (data ++ List.replicate n 0) = StPackCmd.ofBytes data := by
  simp only [StPackCmd.ofBytes, u32At, u16At, getD_pad]

theorem dataLeft_pad {data : List Byte} {len : ℕ} (h : len ≤ data.length)
    (hlen : data.length ≤ sizeofEthRevBuff) :
    dataLeft (data ++ List.replicate (sizeofEthRevBuff - data.length) 0) len =
      data.drop len ++ List.replicate (sizeofEthRevBuff - (data.drop len).length) 0 := by
  have hmin : min len (data ++ List.replicate (sizeofEthRevBuff - data.length) (0 : Byte)).length =
      len := by
    rw [List.length_append, List.length_replicate]
    omega
  have hrest : sizeofEthRevBuff - (data.drop len).length =
      sizeofEthRevBuff - data.length + len := by
    rw [List.length_drop]
    omega
  unfold dataLeft
  rw [hmin, List.drop_append_of_le_length h, List.append_assoc, List.replicate_append_replicate,
    hrest]

theorem readN_pad {data : List Byte} {len : ℕ} (h : len ≤ data.length) (n : ℕ) :
    readN (data ++ List.replicate n 0) len = data.take len := by
  rw [readN_of_le (by rw [List.length_append]; omega), List.take_append_of_le_length h]

theorem Live.toState_drop (l : Live) (h : 0 < l.data.length)
    (hlen : l.data.length ≤ sizeofEthRevBuff) :
    l.drop.toState = { l.toState with
      buf := dataLeft l.toState.buf 1
      recvLen := l.toState.recvLen - 1
      offset := l.toState.offset + 1 } := by
  show Live.toState ⟨l.data.drop 1, l.offset + 1, l.log⟩ = _
  unfold Live.toState
  rw [dataLeft_pad h hlen, List.length_drop]

/-- The inner loop skips what the parser skips. -/
theorem skip_toState_of_junk {l : Live} (h : verdict l.data = .junk)
    (hlen : l.data.length ≤ sizeofEthRevBuff) : l.toState.skip = l.drop.toState.skip := by
  have hspec := verdict_spec l.data
  rw [h] at hspec
  cases hspec with
  | junk hnil hjunk =>
    have hpos := List.length_pos_iff.2 hnil
    rw [State.skip, if_pos ⟨hpos, by rwa [Live.toState, getD_pad]⟩, Live.toState_drop l hpos hlen]

theorem skip_toState {l : Live} (h : verdict l.data ≠ .junk) : l.toState.skip = l.toState := by
  rw [State.skip, if_neg]
  rintro ⟨hpos, hjunk⟩
  rw [Live.toState, getD_pad] at hjunk
  apply h
  rw [verdict, if_neg (List.length_pos_iff.1 hpos), if_pos hjunk]

/-- What the outer loop does after the inner one. -/
theorem scan_congr {s s' : State} (h : s.skip = s'.skip) :
    s.scan appId atStatus = s'.scan appId atStatus := by
  rw [State.scan, State.scan, h]

theorem Live.toState_take {l : Live} {len : ℕ} (h : len ≤ l.data.length)
    (hlen : l.data.length ≤ sizeofEthRevBuff) :
    (l.take appId atStatus len).toState =
      { buf := dataLeft l.toState.buf len
        recvLen := l.toState.recvLen - len
        offset := l.toState.offset + len
        log := l.toState.log ++ [⟨l.toState.offset,
          target appId (StPackCmd.ofBytes l.toState.buf) (atStatus l.toState.offset),
          readN l.toState.buf len⟩] } := by
  have hdata : (l.take appId atStatus len).data = l.data.drop len := rfl
  unfold Live.toState
  rw [hdata, dataLeft_pad h hlen, List.length_drop, ofBytes_pad, readN_pad h]
  rfl

/-- A pass of the outer loop that finds a frame. -/
theorem scan_toState_of_frame {l : Live} {len : ℕ} (h : verdict l.data = .frame len)
    (hlen : l.data.length ≤ sizeofEthRevBuff) :
    l.toState.scan appId atStatus =
      if 10 ≤ (l.take appId atStatus len).data.length then
        (l.take appId atStatus len).toState.scan appId atStatus
      else (l.take appId atStatus len).toState := by
  have hspec := verdict_spec l.data
  have hskip : l.toState.skip = l.toState := skip_toState (by rw [h]; simp)
  have hclaim : (StPackCmd.ofBytes l.toState.buf).frameLen = claimedLen l.data :=
    congrArg StPackCmd.frameLen (ofBytes_pad ..)
  rw [h] at hspec
  cases hspec with
  | frame _ hle hpos hcrc =>
    have hcrc' : ModbusCrc16 (readN l.toState.buf (claimedLen l.data)) = 0 := by
      rw [Live.toState, readN_pad hle]
      exact hcrc
    have htake := Live.toState_take appId atStatus hle hlen
    have hlen' : (l.take appId atStatus (claimedLen l.data)).data.length =
      l.toState.recvLen - claimedLen l.data := List.length_drop ..
    rw [State.scan]
    simp only [hskip, hclaim]
    have hnlt : ¬ l.toState.recvLen < claimedLen l.data := Nat.not_lt.2 hle
    rw [if_neg hnlt, if_pos hcrc', hlen', htake]
    rfl

/-- A pass of the outer loop that stops. -/
theorem scan_toState_of_stops {l : Live} (h : Stops l.data) :
    l.toState.scan appId atStatus = l.toState := by
  have hskip : l.toState.skip = l.toState := by
    apply skip_toState
    rcases h with h | h <;> rw [h] <;> simp
  have hclaim : (StPackCmd.ofBytes l.toState.buf).frameLen = claimedLen l.data :=
    congrArg StPackCmd.frameLen (ofBytes_pad ..)
  rw [State.scan]
  simp only [hskip, hclaim]
  have hwait : l.data.length < claimedLen l.data →
      l.toState.recvLen < claimedLen l.data := id
  have hspec := verdict_spec l.data
  rcases h with h | h <;> rw [h] at hspec
  · cases hspec with
    | empty hnil => rw [if_pos (hwait (lt_claimedLen (by rw [hnil]; decide)))]
    | incomplete _ hlt => rw [if_pos (hwait hlt)]
  · cases hspec with
    | bad _ hle hcrc =>
      have hnlt : ¬ l.toState.recvLen < claimedLen l.data := Nat.not_lt.2 hle
      have hcrc' : ModbusCrc16 (readN l.toState.buf (claimedLen l.data)) ≠ 0 := by
        rw [Live.toState, readN_pad hle]
        exact hcrc
      rw [if_neg hnlt, if_neg hcrc']

/-- On the buffer the parser does what it does on the bytes. -/
theorem scan_toState (l : Live) (hlen : l.data.length ≤ sizeofEthRevBuff) :
    l.toState.scan appId atStatus = (l.scan appId atStatus).toState := by
  induction l using scan_induct appId atStatus with
  | junk l h ih =>
    rw [scan_of_junk h, scan_congr appId atStatus (skip_toState_of_junk h hlen)]
    exact ih (le_trans (length_drop_le l) hlen)
  | frame l len h ih =>
    rw [scan_of_frame h, scan_toState_of_frame appId atStatus h hlen]
    split_ifs with h10
    · exact ih h10 (le_trans (length_take_le appId atStatus l len) hlen)
    · rfl
  | stops l h =>
    rw [scan_of_stops h, scan_toState_of_stops appId atStatus h]

theorem length_scan_le (l : Live) :
    (l.scan appId atStatus).data.length ≤ l.data.length := by
  induction l using scan_induct appId atStatus with
  | junk l h ih =>
    rw [scan_of_junk h]
    exact le_trans ih (length_drop_le l)
  | frame l len h ih =>
    rw [scan_of_frame h]
    split_ifs with h10
    · exact le_trans (ih h10) (length_take_le appId atStatus l len)
    · exact length_take_le appId atStatus l len
  | stops l h =>
    rw [scan_of_stops h]

/-- What `recv` does to the buffer is what it does to the bytes. -/
theorem recv_toState {l : Live} {chunk : List Byte}
    (hlen : chunk.length ≤ sizeofEthRevBuff - l.data.length)
    (hsize : l.data.length ≤ sizeofEthRevBuff) :
    l.toState.recv appId atStatus chunk = (l.recv appId atStatus chunk).toState := by
  have hlen' : (l.data ++ chunk).length ≤ sizeofEthRevBuff := by
    rw [List.length_append]
    omega
  have hbuf : l.toState.buf.take l.toState.recvLen ++ chunk ++
      l.toState.buf.drop (l.toState.recvLen + chunk.length) =
      (l.data ++ chunk) ++ List.replicate (sizeofEthRevBuff - (l.data ++ chunk).length) 0 := by
    have hrest : sizeofEthRevBuff - l.data.length - (l.data.length + chunk.length - l.data.length) =
        sizeofEthRevBuff - (l.data ++ chunk).length := by
      rw [List.length_append]
      omega
    show (l.data ++ List.replicate _ 0).take l.data.length ++ chunk ++
      (l.data ++ List.replicate _ 0).drop (l.data.length + chunk.length) = _
    rw [List.take_left, List.drop_append, List.drop_replicate,
      List.drop_eq_nil_of_le (Nat.le_add_right _ _), List.nil_append, hrest]
  have hstate : { l.toState with
      buf := l.toState.buf.take l.toState.recvLen ++ chunk ++
        l.toState.buf.drop (l.toState.recvLen + chunk.length)
      recvLen := l.toState.recvLen + chunk.length } =
      Live.toState { l with data := l.data ++ chunk } := by
    rw [hbuf]
    unfold Live.toState
    rw [List.length_append]
  have hscan := length_scan_le appId atStatus { l with data := l.data ++ chunk }
  unfold State.recv
  rw [hstate]
  unfold State.processDataFromServer Live.recv Live.flush
  rw [scan_toState appId atStatus _ hlen']
  generalize Live.scan appId atStatus { l with data := l.data ++ chunk } = l' at hscan
  have hl' : l'.data.length ≤ sizeofEthRevBuff := le_trans hscan hlen'
  by_cases hfull : buffLen < l'.data.length
  · simp only [if_pos hfull]
    rw [if_pos (show buffLen < l'.toState.recvLen from hfull)]
    have hlength : l'.toState.buf.length = sizeofEthRevBuff := by
      unfold Live.toState
      rw [List.length_append, List.length_replicate]
      omega
    rw [hlength]
    rfl
  · simp only [if_neg hfull]
    rw [if_neg (show ¬ buffLen < l'.toState.recvLen from hfull)]

end

end Abox.Server
