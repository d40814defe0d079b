import Abox.Radio.Check

/-!
# The frames in what the radio received

What `checkDataFromSubg` finds in a buffer, as a relation on the received bytes
alone: a scan from the left that skips a byte at a time where no frame starts or
the frame is not valid, takes a valid frame, and stops in front of a frame that is
not complete. Behind the received bytes the buffer is zeroed, so a header that is
not complete is read with zeros.

* `scanned_unique`: the scan has one result.
* `SubgBuff.scan_scanned`: the loops of `checkDataFromSubg` carry the scan out.
* `checkDataFromSubg_exact`: for every buffer, the frames that are handed on and
  what is left.
-/

namespace Abox.Radio

open Server

/-! ## The scan -/

/-- The length that the header at the front of `bs` claims for its frame. -/
def claimed (bs : List Byte) : ℕ := cmdLength (StPackCmd.ofBytes bs)

/-- The bytes start with `#` or `$`. -/
def StartsFrame (bs : List Byte) : Prop := IsHead (bs.getD 0 0)

/-- The frame that starts here is too long, or complete and its checksum is wrong. -/
def Rejected (bs : List Byte) : Prop :=
  buffLen < claimed bs ∨ (claimed bs ≤ bs.length ∧ ModbusCrc16 (bs.take (claimed bs)) ≠ 0)

/-- `Scanned bs fs rest`: the scan of `bs` meets the valid frames `fs` and leaves
    `rest`. -/
inductive Scanned : List Byte → List (List Byte) → List Byte → Prop
  | nil : Scanned [] [] []
  | skip {b : Byte} {bs : List Byte} {fs : List (List Byte)} {rest : List Byte} :
    ¬ IsHead b → Scanned bs fs rest → Scanned (b :: bs) fs rest
  | reject {b : Byte} {bs : List Byte} {fs : List (List Byte)} {rest : List Byte} :
    IsHead b → Rejected (b :: bs) → Scanned bs fs rest → Scanned (b :: bs) fs rest
  | frame {bs : List Byte} {fs : List (List Byte)} {rest : List Byte} :
    StartsFrame bs → claimed bs ≤ buffLen → claimed bs ≤ bs.length →
    ModbusCrc16 (bs.take (claimed bs)) = 0 → Scanned (bs.drop (claimed bs)) fs rest →
    Scanned bs (bs.take (claimed bs) :: fs) rest
  | wait {bs : List Byte} : StartsFrame bs → bs.length < claimed bs → claimed bs ≤ buffLen →
    Scanned bs [] bs

/-- Bytes that start a frame are not empty. -/
theorem StartsFrame.ne_nil {bs : List Byte} (h : StartsFrame bs) : bs ≠ [] := by
  rintro rfl
  revert h
  unfold StartsFrame
  decide

theorem scanned_unique {bs : List Byte} {fs fs' : List (List Byte)} {rest rest' : List Byte}
    (h : Scanned bs fs rest) (h' : Scanned bs fs' rest') : fs' = fs ∧ rest' = rest := by
  induction h generalizing fs' rest' with
  | nil =>
    cases h' with
    | nil => exact ⟨rfl, rfl⟩
    | frame hs => exact absurd rfl hs.ne_nil
    | wait hs => exact absurd rfl hs.ne_nil
  | skip hb _ ih =>
    cases h' with
    | skip _ h' => exact ih h'
    | reject hb' => exact absurd hb' hb
    | frame hs => exact absurd hs hb
    | wait hs => exact absurd hs hb
  | reject hb hrej _ ih =>
    cases h' with
    | skip hb' => exact absurd hb hb'
    | reject _ _ h' => exact ih h'
    | frame _ hle hlen hcrc =>
      rcases hrej with hbig | ⟨-, hcrc'⟩
      · exact absurd hle (Nat.not_le.2 hbig)
      · exact absurd hcrc hcrc'
    | wait _ hlt hle =>
      rcases hrej with hbig | ⟨hlen, -⟩
      · exact absurd hle (Nat.not_le.2 hbig)
      · exact absurd hlen (Nat.not_le.2 hlt)
  | frame hs hle hlen hcrc _ ih =>
    cases h' with
    | nil => exact absurd rfl hs.ne_nil
    | skip hb' => exact absurd hs hb'
    | reject _ hrej =>
      rcases hrej with hbig | ⟨-, hcrc'⟩
      · exact absurd hle (Nat.not_le.2 hbig)
      · exact absurd hcrc hcrc'
    | frame _ _ _ _ h' =>
      obtain ⟨rfl, rfl⟩ := ih h'
      exact ⟨rfl, rfl⟩
    | wait _ hlt => exact absurd hlen (Nat.not_le.2 hlt)
  | wait hs hlt hle =>
    cases h' with
    | nil => exact ⟨rfl, rfl⟩
    | skip hb' => exact absurd hs hb'
    | reject _ hrej =>
      rcases hrej with hbig | ⟨hlen, -⟩
      · exact absurd hle (Nat.not_le.2 hbig)
      · exact absurd hlen (Nat.not_le.2 hlt)
    | frame _ _ hlen => exact absurd hlen (Nat.not_le.2 hlt)
    | wait => exact ⟨rfl, rfl⟩

/-- What is left is the end of the bytes, and starts a frame if there is any. -/
theorem Scanned.rest {bs : List Byte} {fs : List (List Byte)} {rest : List Byte}
    (h : Scanned bs fs rest) : rest <:+ bs ∧ (rest = [] ∨ StartsFrame rest) := by
  induction h with
  | nil => exact ⟨List.suffix_refl _, Or.inl rfl⟩
  | skip _ _ ih => exact ⟨ih.1.trans (List.suffix_cons ..), ih.2⟩
  | reject _ _ _ ih => exact ⟨ih.1.trans (List.suffix_cons ..), ih.2⟩
  | frame _ _ _ _ _ ih => exact ⟨ih.1.trans (List.drop_suffix ..), ih.2⟩
  | wait hs _ _ => exact ⟨List.suffix_refl _, Or.inr hs⟩

/-- A zero in front is skipped. -/
theorem Scanned.of_zero_cons {bs : List Byte} {fs : List (List Byte)} {rest : List Byte}
    (h : Scanned (0 :: bs) fs rest) : Scanned bs fs rest := by
  have hzero : ¬ IsHead (0 : Byte) := by decide
  cases h with
  | skip _ h => exact h
  | reject hb => exact absurd hb hzero
  | frame hs => exact absurd hs hzero
  | wait hs => exact absurd hs hzero

/-! ## Zeroed buffers -/

/-- A buffer of `BUFF_LEN` bytes that starts with `bs`, and zeros behind. -/
def zeroed (bs : List Byte) : List Byte := bs ++ List.replicate (buffLen - bs.length) 0

theorem getD_zeroed (bs : List Byte) (k : ℕ) : (zeroed bs).getD k 0 = bs.getD k 0 := by
  unfold zeroed
  by_cases hk : k < bs.length
  · exact List.getD_append _ _ _ _ hk
  · rw [List.getD_append_right _ _ _ _ (Nat.le_of_not_lt hk),
      List.getD_eq_default _ _ (Nat.le_of_not_lt hk), List.getD_eq_getElem?_getD]
    exact List.getElem?_getD_replicate_default_eq ..

theorem ofBytes_zeroed (bs : List Byte) : StPackCmd.ofBytes (zeroed bs) = StPackCmd.ofBytes bs := by
  simp only [StPackCmd.ofBytes, u32At, u16At, getD_zeroed]

theorem readN_zeroed {bs : List Byte} {n : ℕ} (h : n ≤ bs.length) :
    readN (zeroed bs) n = bs.take n := by
  unfold zeroed
  rw [readN_of_le (by rw [List.length_append]; omega), List.take_append_of_le_length h]

theorem dataLeft_zeroed {bs : List Byte} {n : ℕ} (h : n ≤ bs.length) (hle : bs.length ≤ buffLen) :
    dataLeft (zeroed bs) n = zeroed (bs.drop n) := by
  unfold dataLeft zeroed
  rw [List.drop_append_of_le_length h, List.append_assoc, List.replicate_append_replicate,
    List.length_append, List.length_replicate, List.length_drop]
  congr 2
  omega

theorem length_zeroed {bs : List Byte} (hle : bs.length ≤ buffLen) :
    (zeroed bs).length = buffLen := by
  unfold zeroed
  rw [List.length_append, List.length_replicate]
  omega

/-! ## The loops -/

namespace SubgBuff

/-- The buffer holds the bytes `bs`. -/
structure Holds (s : SubgBuff) (bs : List Byte) : Prop where
  buff : s.checkBuff = zeroed bs
  len : s.checkLen = bs.length
  le : bs.length ≤ buffLen

theorem Holds.isHead {s : SubgBuff} {bs : List Byte} (h : s.Holds bs) :
    IsHead (s.checkBuff.getD 0 0) ↔ StartsFrame bs := by
  rw [h.buff, getD_zeroed]
  rfl

/-- The inner loop skips what starts no frame. -/
theorem Holds.skip {s : SubgBuff} {bs : List Byte} (h : s.Holds bs) :
    ∃ bs', s.skip.Holds bs' ∧ s.skip.sent = s.sent ∧ (bs' = [] ∨ StartsFrame bs') ∧
      ∀ fs rest, Scanned bs' fs rest → Scanned bs fs rest := by
  induction s using skip.induct generalizing bs with
  | case1 s hs ih =>
    rw [SubgBuff.skip, if_pos hs]
    obtain ⟨b, bs, rfl⟩ : ∃ b bs', bs = b :: bs' := by
      apply List.exists_cons_of_ne_nil
      rw [← List.length_pos_iff, ← h.len]
      exact hs.1
    have hb : ¬ IsHead b := fun hb => hs.2 (h.isHead.2 hb)
    have htail : ({ s with checkBuff := dataLeft s.checkBuff 1, checkLen := s.checkLen - 1 } :
        SubgBuff).Holds bs := by
      refine ⟨?_, ?_, le_trans (Nat.le_succ _) h.le⟩
      · show dataLeft s.checkBuff 1 = zeroed bs
        rw [h.buff]
        exact dataLeft_zeroed (Nat.succ_le_succ (Nat.zero_le _)) h.le
      · show s.checkLen - 1 = bs.length
        rw [h.len]
        rfl
    obtain ⟨bs', hbs', hsent, hstart, hscan⟩ := ih htail
    exact ⟨bs', hbs', hsent, hstart, fun fs rest hs' => .skip hb (hscan fs rest hs')⟩
  | case2 s hs =>
    rw [SubgBuff.skip, if_neg hs]
    refine ⟨bs, h, rfl, ?_, fun _ _ hs' => hs'⟩
    by_cases hnil : bs = []
    · exact Or.inl hnil
    · right
      by_contra hstart
      apply hs
      refine ⟨?_, fun hhead => hstart (h.isHead.1 hhead)⟩
      rw [h.len]
      exact List.length_pos_iff.2 hnil

/-- A rejected head byte is zeroed, and then skipped. -/
theorem Holds.dropHead {s : SubgBuff} {b : Byte} {bs : List Byte} (h : s.Holds (b :: bs)) :
    s.dropHead.Holds (0 :: bs) := by
  refine ⟨?_, h.len, h.le⟩
  show s.checkBuff.set 0 0 = zeroed (0 :: bs)
  rw [h.buff]
  rfl

/-- What follows a complete frame. -/
theorem Holds.dropFrame {s : SubgBuff} {bs : List Byte} {n : ℕ} (h : s.Holds bs)
    (hn : n ≤ bs.length) (sent : List (List Byte)) :
    Holds ⟨dataLeft s.checkBuff n, s.checkLen - n, sent⟩ (bs.drop n) := by
  refine ⟨?_, ?_, ?_⟩
  · show dataLeft s.checkBuff n = zeroed (bs.drop n)
    rw [h.buff]
    exact dataLeft_zeroed hn h.le
  · show s.checkLen - n = (bs.drop n).length
    rw [h.len, List.length_drop]
  · rw [List.length_drop]
    exact le_trans (Nat.sub_le ..) h.le

/-- A buffer that is not empty has a first byte. -/
theorem Holds.cons {s : SubgBuff} {bs : List Byte} (h : s.Holds bs) (h0 : s.checkLen ≠ 0) :
    ∃ b bs', bs = b :: bs' := by
  apply List.exists_cons_of_ne_nil
  rintro rfl
  exact h0 h.len

/-- The header is read from the bytes that were received, and zeros behind. -/
theorem Holds.cmdLen {s : SubgBuff} {bs : List Byte} (h : s.Holds bs) :
    cmdLength (StPackCmd.ofBytes s.checkBuff) = claimed bs := by
  rw [h.buff, ofBytes_zeroed]
  rfl

/-- The buffer, from the bytes it holds. -/
theorem Holds.eq {s : SubgBuff} {bs : List Byte} (h : s.Holds bs) :
    s = ⟨zeroed bs, bs.length, s.sent⟩ := by
  obtain ⟨checkBuff, checkLen, sent⟩ := s
  obtain ⟨rfl, rfl, -⟩ := h
  rfl

/-- The outer loop carries the scan out. -/
theorem scan_scanned (linked : Bool) (s : SubgBuff) : ∀ bs, s.Holds bs →
    ∃ fs rest, Scanned bs fs rest ∧
      s.scan linked = ⟨zeroed rest, rest.length, s.sent ++ if linked then fs else []⟩ := by
  fun_induction scan linked s with
  | case1 s s1 h0 =>
    intro bs h
    obtain ⟨bs', h', hsent, -, hscan⟩ := h.skip
    change s1.Holds bs' at h'
    obtain rfl : bs' = [] := List.length_eq_zero_iff.1 (h'.len.symm.trans h0)
    refine ⟨[], [], hscan _ _ .nil, ?_⟩
    rw [h'.buff, length_zeroed h'.le, show s1.sent = s.sent from hsent, h0, ite_self,
      List.append_nil]
    rfl
  | case2 s s1 h0 cmdLen hbig ih =>
    intro bs h
    obtain ⟨bs', h', hsent, hhead, hscan⟩ := h.skip
    change s1.Holds bs' at h'
    obtain ⟨b, bs', rfl⟩ := h'.cons h0
    have hstart : IsHead b := hhead.resolve_left (List.cons_ne_nil b bs')
    obtain ⟨fs, rest, hs, heq⟩ := ih _ h'.dropHead
    have hrej : Rejected (b :: bs') := Or.inl (h'.cmdLen ▸ hbig)
    refine ⟨fs, rest, hscan _ _ (.reject hstart hrej hs.of_zero_cons), heq.trans ?_⟩
    rw [show s1.dropHead.sent = s.sent from hsent]
  | case3 s s1 h0 cmdLen hbig hlen hcrc ih =>
    intro bs h
    obtain ⟨bs', h', hsent, hhead, hscan⟩ := h.skip
    change s1.Holds bs' at h'
    have hcmd : cmdLen = claimed bs' := h'.cmdLen
    have hread : readN s1.checkBuff cmdLen = bs'.take cmdLen := by
      rw [h'.buff]
      exact readN_zeroed (h'.len ▸ hlen)
    have hne : bs' ≠ [] := fun hnil => h0 (by rw [h'.len, hnil]; rfl)
    obtain ⟨fs, rest, hs, heq⟩ := ih _ (h'.dropFrame (h'.len ▸ hlen) _)
    rw [hread] at hcrc
    rw [hcmd] at hcrc hs
    refine ⟨bs'.take (claimed bs') :: fs, rest,
      hscan _ _ (.frame (hhead.resolve_left hne) (hcmd ▸ Nat.le_of_not_lt hbig)
        (hcmd ▸ h'.len ▸ hlen) hcrc hs), heq.trans ?_⟩
    rw [hread, hcmd, show s1.sent = s.sent from hsent]
    cases linked with
    | false => simp
    | true => simp
  | case4 s s1 h0 cmdLen hbig hlen hcrc ih =>
    intro bs h
    obtain ⟨bs', h', hsent, hhead, hscan⟩ := h.skip
    change s1.Holds bs' at h'
    obtain ⟨b, bs', rfl⟩ := h'.cons h0
    have hstart : IsHead b := hhead.resolve_left (List.cons_ne_nil b bs')
    have hread : readN s1.checkBuff cmdLen = (b :: bs').take cmdLen := by
      rw [h'.buff]
      exact readN_zeroed (h'.len ▸ hlen)
    obtain ⟨fs, rest, hs, heq⟩ := ih _ h'.dropHead
    have hrej : Rejected (b :: bs') := by
      right
      rw [hread] at hcrc
      rw [← h'.cmdLen, ← h'.len]
      exact ⟨hlen, hcrc⟩
    refine ⟨fs, rest, hscan _ _ (.reject hstart hrej hs.of_zero_cons), heq.trans ?_⟩
    rw [show s1.dropHead.sent = s.sent from hsent]
  | case5 s s1 h0 cmdLen hbig hlen =>
    intro bs h
    obtain ⟨bs', h', hsent, hhead, hscan⟩ := h.skip
    change s1.Holds bs' at h'
    have hne : bs' ≠ [] := fun hnil => h0 (by rw [h'.len, hnil]; rfl)
    have hcmd : cmdLen = claimed bs' := h'.cmdLen
    refine ⟨[], bs', hscan _ _ (.wait (hhead.resolve_left hne) ?_ ?_), ?_⟩
    · rw [← hcmd, ← h'.len]
      exact Nat.lt_of_not_le hlen
    · rw [← hcmd]
      exact Nat.le_of_not_lt hbig
    · rw [ite_self, List.append_nil, ← show s1.sent = s.sent from hsent]
      exact h'.eq

end SubgBuff

/-! ## The function -/

/-- For every buffer whose bytes past the first `n` are zero: the scan of these `n`
    bytes has one result, its frames are handed to `sendDataToServer` unless the
    link is down, and what it leaves stands at the front of a buffer of zeros. -/
theorem checkDataFromSubg_exact (linked : Bool) (checkBuff : List Byte) (n : ℕ)
    (hlen : checkBuff.length = buffLen) (hn : n ≤ buffLen)
    (hzero : checkBuff.drop n = List.replicate (buffLen - n) 0) :
    ∃ fs rest, Scanned (checkBuff.take n) fs rest ∧
      (∀ fs' rest', Scanned (checkBuff.take n) fs' rest' → fs' = fs ∧ rest' = rest) ∧
      checkDataFromSubg linked checkBuff n =
        ⟨zeroed rest, rest.length, if linked then fs else []⟩ ∧
      rest <:+ checkBuff.take n ∧ (rest = [] ∨ StartsFrame rest) := by
  have htake : (checkBuff.take n).length = n := by
    rw [List.length_take, hlen]
    exact min_eq_left hn
  have hbuff : checkBuff = zeroed (checkBuff.take n) := by
    unfold zeroed
    rw [htake, ← hzero, List.take_append_drop]
  have hheld : SubgBuff.Holds ⟨checkBuff, n, []⟩ (checkBuff.take n) :=
    ⟨hbuff, htake.symm, htake.trans_le hn⟩
  obtain ⟨fs, rest, hs, heq⟩ := SubgBuff.scan_scanned linked _ _ hheld
  refine ⟨fs, rest, hs, fun fs' rest' hs' => scanned_unique hs hs', ?_, hs.rest⟩
  unfold checkDataFromSubg
  by_cases h0 : n = 0
  · -- nothing has been received, and nothing changes
    subst h0
    obtain ⟨rfl, rfl⟩ := scanned_unique .nil hs
    rw [if_pos rfl, ite_self]
    exact hheld.eq
  · rw [if_neg h0]
    exact heq

/-- A byte that starts no frame, a frame, and the start of another one. -/
theorem checkDataFromSubg_one :
    checkDataFromSubg true (zeroed [0x31, 0x24, 0x01, 0, 0, 0, 0, 0, 0, 0x53, 0x20, 0x23]) 12 =
      ⟨zeroed [0x23], 1, [[0x24, 0x01, 0, 0, 0, 0, 0, 0, 0x53, 0x20]]⟩ := by
  obtain ⟨fs, rest, -, hunique, heq, -, -⟩ := checkDataFromSubg_exact true
    (zeroed [0x31, 0x24, 0x01, 0, 0, 0, 0, 0, 0, 0x53, 0x20, 0x23]) 12
    (length_zeroed (by decide)) (by decide) (List.drop_left' rfl)
  have htake : (zeroed [0x31, 0x24, 0x01, 0, 0, 0, 0, 0, 0, 0x53, 0x20, 0x23]).take 12 =
      [0x31, 0x24, 0x01, 0, 0, 0, 0, 0, 0, 0x53, 0x20, 0x23] := List.take_left' rfl
  have hfirst : ¬ IsHead (0x31 : Byte) := by decide
  have hstart : StartsFrame [0x24, 0x01, 0, 0, 0, 0, 0, 0, 0x53, 0x20, 0x23] := by
    unfold StartsFrame; decide
  have hwait : Scanned [0x23] [] [0x23] :=
    .wait (by unfold StartsFrame; decide) (by decide) (by decide)
  have hscan := Scanned.skip hfirst
    (.frame hstart (by decide) (by decide) (by decide +kernel) hwait)
  obtain ⟨hfs, hrest⟩ := hunique _ _ (htake.symm ▸ hscan)
  rw [heq, ← hfs, ← hrest]
  rfl

end Abox.Radio
