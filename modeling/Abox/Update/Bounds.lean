import Abox.Update.Staging

/-!
# Where a remote update writes

The address of a chunk and the number of received bytes advance by the length
of the message less four, whatever it is; the announced size is only compared
for equality, and the end of the flash is never looked at.

* `recvPass_frame`: a pass changes only the bytes that it programs.
* `updateWrites_iff`: exactly when an update stays in the staging sectors and
  receives no more than was announced.
* `chunk_too_long`: a chunk of eight bytes for a program of four.
-/

namespace Abox.Update

open Nor Flash

/-! ## Specification -/

/-- The addresses `writeByteToFlash` programs before it returns or hangs. -/
def programmed (writeAddr : ℕ) : List Byte → List ℕ
  | [] => []
  | _ :: data =>
    if isFlashAddress writeAddr then writeAddr :: programmed (writeAddr + 1) data else []

/-- The message is taken for the chunk that comes next. -/
def State.Accepts (s : State) (rev : List Byte) : Prop :=
  IsTcmd11 (setupAppId s.sysSetup) rev ∧ u32At rev 8 = s.cmd11.flen

instance (s : State) (rev : List Byte) : Decidable (s.Accepts rev) :=
  inferInstanceAs (Decidable (_ ∧ _))

/-- The addresses a pass of the receiving loop programs with a chunk. -/
def State.chunkProgrammed (s : State) : Option (List Byte) → List ℕ
  | none => []
  | some rev => if s.Accepts rev then programmed s.startAddr.toNat (chunk rev) else []

/-- The addresses it programs with the length, after the last chunk. -/
def State.lengthProgrammed (s : State) (cmd12 : TcmdInfo) : Option (List Byte) → List ℕ
  | none => []
  | some rev =>
    if s.Accepts rev ∧ (writeByteToFlash s.mem s.startAddr.toNat (chunk rev)).isSome ∧
        s.cmd11.flen + chunkLen rev = cmd12.flen then
      programmed updataAppAddr (Layout.word.encode cmd12.flen)
    else []

/-- The state after a pass that does not hang. -/
def Pass.state : Pass → Option State
  | .again s => some s
  | .ended _ s => some s
  | .hang => none

/-- A pass programs the length at `UPDATA_APP_ADDR` and chunks behind it in the
    sectors 9 to 11, and `cmd_11.flen` does not exceed `cmd_12.flen` after it. -/
structure InBounds (cmd12 : TcmdInfo) (s : State) (msg : Option (List Byte)) : Prop where
  chunk : ∀ a ∈ s.chunkProgrammed msg, updataAppAddr + 4 ≤ a ∧ a < flashEnd
  length : ∀ a ∈ s.lengthProgrammed cmd12 msg, updataAppAddr ≤ a ∧ a < updataAppAddr + 4
  flen : ∀ s', (s.recvPass cmd12 msg).state = some s' → s'.cmd11.flen ≤ cmd12.flen

/-- The passes of the receiving loop: the state before each, and its message. -/
def State.passes (cmd12 : TcmdInfo) (s : State) :
    List (Option (List Byte)) → List (State × Option (List Byte))
  | [] => []
  | msg :: msgs =>
    (s, msg) :: match s.recvPass cmd12 msg with
      | .again s' => passes cmd12 s' msgs
      | _ => []

/-- The address of the chunk at offset `got`. -/
def chunkAddr (got : BitVec 32) : BitVec 32 := BitVec.ofNat 32 updataAppAddr + 4 + got

/-- Writing `len` bytes from `writeAddr` on reaches an address that cannot be
    programmed. -/
def Stalls (writeAddr len : ℕ) : Prop :=
  writeAddr ≠ 0 ∧ ∃ k < len, isFlashAddress (writeAddr + k) = false

/-- A chunk at the offset `got` starts in front of the end of the flash, if it
    has a first byte and this can be programmed; and it ends at or before the
    announced size, or is so long that writing it hangs. -/
def ChunkOk (cmd12 : TcmdInfo) (got : BitVec 32) (rev : List Byte) : Prop :=
  (chunkLen rev ≠ 0 → isFlashAddress (chunkAddr got).toNat = true →
    updataAppAddr + 4 + got.toNat < flashEnd) ∧
  (Stalls (chunkAddr got).toNat (chunkLen rev).toNat ∨ got + chunkLen rev ≤ cmd12.flen)

/-- A message that is taken for a chunk meets `ChunkOk`. -/
def BoundsOk (cmd12 : TcmdInfo) (s : State) (msg : Option (List Byte)) : Prop :=
  ∀ rev, msg = some rev → s.Accepts rev → ChunkOk cmd12 s.cmd11.flen rev

/-! ## Programmed addresses -/

theorem mem_programmed {writeAddr a : ℕ} {data : List Byte} (h : a ∈ programmed writeAddr data) :
    isFlashAddress writeAddr = true ∧ writeAddr ≤ a ∧ a < writeAddr + data.length ∧
      ∀ k, writeAddr + k ≤ a → isFlashAddress (writeAddr + k) = true := by
  induction data generalizing writeAddr with
  | nil => cases h
  | cons b data ih =>
    rw [programmed] at h
    split_ifs at h with hflash
    · have hlen : (b :: data).length = data.length + 1 := rfl
      rcases List.mem_cons.1 h with rfl | h
      · refine ⟨hflash, le_rfl, by omega, fun k hk => ?_⟩
        rw [show k = 0 by omega]
        exact hflash
      · obtain ⟨-, h1, h2, h3⟩ := ih h
        refine ⟨hflash, by omega, by omega, fun k hk => ?_⟩
        cases k with
        | zero => exact hflash
        | succ k =>
          rw [show writeAddr + (k + 1) = writeAddr + 1 + k by omega]
          exact h3 k (by omega)
    · cases h

theorem programmed_head {writeAddr : ℕ} {data : List Byte} (hne : data ≠ [])
    (h : isFlashAddress writeAddr = true) : writeAddr ∈ programmed writeAddr data := by
  cases data with
  | nil => exact absurd rfl hne
  | cons b data =>
    rw [programmed, if_pos h]
    exact List.mem_cons_self

/-- A write that returns has programmed all of its addresses. -/
theorem programmed_of_flash {writeAddr a : ℕ} {data : List Byte}
    (h : ∀ k < data.length, isFlashAddress (writeAddr + k) = true) (h1 : writeAddr ≤ a)
    (h2 : a < writeAddr + data.length) : a ∈ programmed writeAddr data := by
  induction data generalizing writeAddr with
  | nil =>
    have hlen : ([] : List Byte).length = 0 := rfl
    omega
  | cons b data ih =>
    have hlen : (b :: data).length = data.length + 1 := rfl
    rw [programmed, if_pos (show isFlashAddress writeAddr = true from h 0 (by omega))]
    by_cases ha : a = writeAddr
    · rw [ha]
      exact List.mem_cons_self
    · refine List.mem_cons_of_mem _ (ih (fun k hk => ?_) (by omega) (by omega))
      rw [show writeAddr + 1 + k = writeAddr + (k + 1) by omega]
      exact h (k + 1) (by omega)

/-- What a write does not program it leaves alone. -/
theorem writeByteToFlash_frame {m m' : Mem} {writeAddr a : ℕ} {data : List Byte} {r : RtErr}
    (h : writeByteToFlash m writeAddr data = some (r, m')) (ha : a ∉ programmed writeAddr data) :
    m' a = m a := by
  by_cases h0 : writeAddr = 0
  · rw [writeByteToFlash, if_pos (Or.inl h0)] at h
    cases h
    rfl
  · obtain ⟨rfl, hflash⟩ := writeByteToFlash_some h h0
    apply programs_of_disjoint
    by_contra hin
    exact ha (programmed_of_flash hflash (by omega) (by omega))

/-- A write hangs exactly if it comes to an address that cannot be programmed. -/
theorem writeByteToFlash_none_iff {m : Mem} {writeAddr : ℕ} {data : List Byte} :
    writeByteToFlash m writeAddr data = none ↔ Stalls writeAddr data.length := by
  unfold writeByteToFlash Stalls
  by_cases h0 : writeAddr = 0
  · rw [if_pos (Or.inl h0)]
    exact iff_of_false (by simp) fun h => h.1 h0
  · by_cases hnil : data = []
    · subst hnil
      rw [if_pos (Or.inr rfl)]
      refine iff_of_false (by simp) fun h => ?_
      obtain ⟨-, k, hk, -⟩ := h
      exact absurd hk (Nat.not_lt_zero k)
    · rw [if_neg (by simp [h0, hnil]), Option.map_eq_none_iff]
      constructor
      · intro h
        refine ⟨h0, ?_⟩
        by_contra hall
        push Not at hall
        rw [programBytes_eq fun k hk => by simpa using hall k hk] at h
        cases h
      · rintro ⟨-, k, hk, hflash⟩
        by_contra hne
        obtain ⟨m', hm'⟩ := Option.ne_none_iff_exists'.1 hne
        rw [isFlashAddress_of_programBytes hm' k hk] at hflash
        cases hflash

/-! ## One pass -/

theorem length_chunk (rev : List Byte) : (chunk rev).length = (chunkLen rev).toNat :=
  length_readN ..

/-- The state a pass of `s` with the chunk of `rev` ends in. -/
structure Advanced (cmd12 : TcmdInfo) (s s' : State) (rev : List Byte) : Prop where
  startAddr : s'.startAddr = s.startAddr + chunkLen rev
  flen : s'.cmd11.flen = s.cmd11.flen + chunkLen rev
  frame : ∀ k, k ∉ s.chunkProgrammed (some rev) → k ∉ s.lengthProgrammed cmd12 (some rev) →
    s'.mem k = s.mem k

theorem written_advanced {cmd12 : TcmdInfo} {s s1 : State} {rev : List Byte}
    (h : Advanced cmd12 s s1 rev)
    (hlen : s1.cmd11.flen = cmd12.flen → s.lengthProgrammed cmd12 (some rev) =
      programmed updataAppAddr (Layout.word.encode cmd12.flen)) :
    ∃ s', (s1.written cmd12).state = some s' ∧ Advanced cmd12 s s' rev := by
  by_cases hend : s1.cmd11.flen = cmd12.flen
  · have hfour : (Layout.word.encode cmd12.flen).length = 4 := Layout.word.length_encode _
    have hadv : Advanced cmd12 s
        { s1 with mem := programs s1.mem updataAppAddr (Layout.word.encode cmd12.flen) } rev := by
      refine ⟨h.startAddr, h.flen, fun k hk hk' => ?_⟩
      rw [← h.frame k hk hk']
      apply programs_of_disjoint
      by_contra hin
      rw [hlen hend] at hk'
      refine hk' (programmed_of_flash ?_ (by omega) (by omega))
      rw [hfour]
      decide
    rw [written_of_eq hend]
    dsimp only
    split_ifs
    · exact ⟨_, rfl, hadv.startAddr, hadv.flen, hadv.frame⟩
    · exact ⟨_, rfl, hadv⟩
  · rw [written_of_ne hend]
    exact ⟨_, rfl, h.startAddr, h.flen, h.frame⟩

/-- A pass with an accepted chunk advances, or hangs if the write does. -/
theorem recvPass_of_accepts (cmd12 : TcmdInfo) {s : State} {rev : List Byte}
    (h : s.Accepts rev) :
    if writeByteToFlash s.mem s.startAddr.toNat (chunk rev) = none then
      s.recvPass cmd12 (some rev) = .hang
    else ∃ s', (s.recvPass cmd12 (some rev)).state = some s' ∧ Advanced cmd12 s s' rev := by
  rw [recvPass_chunk cmd12 h.1 h.2]
  cases hw : writeByteToFlash s.mem s.startAddr.toNat (chunk rev) with
  | none => rw [if_pos rfl]
  | some p =>
    obtain ⟨r, m⟩ := p
    rw [if_neg (by simp)]
    apply written_advanced
    · refine ⟨rfl, rfl, fun k hk _ => ?_⟩
      rw [State.chunkProgrammed, if_pos h] at hk
      exact writeByteToFlash_frame hw hk
    · intro hend
      rw [State.lengthProgrammed, if_pos ⟨h, by rw [hw]; rfl, hend⟩]

/-- Any other pass programs nothing and does not hang. -/
theorem recvPass_of_other (cmd12 : TcmdInfo) {s : State} {msg : Option (List Byte)}
    (h : ∀ rev, msg = some rev → ¬ s.Accepts rev) :
    ∃ s', (s.recvPass cmd12 msg).state = some s' ∧ s'.startAddr = s.startAddr ∧
      s'.cmd11.flen = s.cmd11.flen ∧ s'.mem = s.mem := by
  have htimeout : ∀ t : State, t.startAddr = s.startAddr → t.cmd11.flen = s.cmd11.flen →
      t.mem = s.mem → ∃ s', t.timeout.state = some s' ∧ s'.startAddr = s.startAddr ∧
        s'.cmd11.flen = s.cmd11.flen ∧ s'.mem = s.mem := by
    intro t h1 h2 h3
    unfold State.timeout
    split_ifs
    · exact ⟨t, rfl, h1, h2, h3⟩
    · exact ⟨_, rfl, h1, h2, h3⟩
  cases msg with
  | none => exact htimeout s rfl rfl rfl
  | some rev =>
    by_cases h11 : IsTcmd11 (setupAppId s.sysSetup) rev
    · have hoff : u32At rev 8 ≠ s.cmd11.flen := fun hoff => h rev rfl ⟨h11, hoff⟩
      rw [recvPass_mismatch cmd12 h11 hoff]
      exact htimeout _ rfl rfl rfl
    · rw [recvPass_other cmd12 h11]
      exact ⟨_, rfl, rfl, rfl, rfl⟩

/-- A pass that does not hang changes only what it programs. -/
theorem recvPass_frame {cmd12 : TcmdInfo} {s s' : State} {msg : Option (List Byte)} {k : ℕ}
    (h : (s.recvPass cmd12 msg).state = some s') (hk : k ∉ s.chunkProgrammed msg)
    (hk' : k ∉ s.lengthProgrammed cmd12 msg) : s'.mem k = s.mem k := by
  by_cases hacc : ∃ rev, msg = some rev ∧ s.Accepts rev
  · obtain ⟨rev, rfl, hacc⟩ := hacc
    have hpass := recvPass_of_accepts cmd12 hacc
    split_ifs at hpass
    · rw [hpass] at h
      cases h
    · obtain ⟨t, ht, hadv⟩ := hpass
      obtain rfl := Option.some.inj (ht.symm.trans h)
      exact hadv.frame k hk hk'
  · push Not at hacc
    obtain ⟨t, ht, -, -, hmem⟩ := recvPass_of_other cmd12 hacc
    obtain rfl := Option.some.inj (ht.symm.trans h)
    rw [hmem]

/-! ## Runs -/

/-- The chunk that comes next goes to its address, and no more bytes than
    announced have been received. -/
structure Receiving (cmd12 : TcmdInfo) (s : State) : Prop where
  startAddr : s.startAddr = chunkAddr s.cmd11.flen
  flen : s.cmd11.flen ≤ cmd12.flen

/-- Chunks are programmed behind the length exactly if they start in front of the
    end of the flash. -/
theorem chunk_inBounds_iff {got : BitVec 32} {data : List Byte} :
    (∀ a ∈ programmed (chunkAddr got).toNat data, updataAppAddr + 4 ≤ a ∧ a < flashEnd) ↔
      (data ≠ [] → isFlashAddress (chunkAddr got).toNat = true →
        updataAppAddr + 4 + got.toNat < flashEnd) := by
  have hu : updataAppAddr = 0x080A0000 := rfl
  have hend : flashEnd = 0x08100000 := rfl
  have haddr : (chunkAddr got).toNat = (0x080A0004 + got.toNat) % 2 ^ 32 := by
    unfold chunkAddr
    rw [hu]
    bv_omega
  constructor
  · intro h hne hflash
    have := h _ (programmed_head hne hflash)
    have hlt := got.isLt
    omega
  · intro h a ha
    obtain ⟨hflash, h1, h2, h3⟩ := mem_programmed ha
    have hne : data ≠ [] := by
      rintro rfl
      cases ha
    have hgot := h hne hflash
    refine ⟨by omega, ?_⟩
    -- the last byte of the flash cannot be programmed
    by_contra hlt
    have := h3 (0x080FFFFF - (chunkAddr got).toNat) (by omega)
    rw [show (chunkAddr got).toNat + (0x080FFFFF - (chunkAddr got).toNat) = 0x080FFFFF by omega]
      at this
    cases this

theorem length_inBounds (cmd12 : TcmdInfo) (s : State) (msg : Option (List Byte)) :
    ∀ a ∈ s.lengthProgrammed cmd12 msg, updataAppAddr ≤ a ∧ a < updataAppAddr + 4 := by
  intro a ha
  cases msg with
  | none => cases ha
  | some rev =>
    rw [State.lengthProgrammed] at ha
    split_ifs at ha
    · obtain ⟨-, h1, h2, -⟩ := mem_programmed ha
      rw [show (Layout.word.encode cmd12.flen).length = 4 from Layout.word.length_encode _] at h2
      exact ⟨h1, h2⟩
    · cases ha

/-- One pass stays in bounds exactly if it meets `BoundsOk`. -/
theorem pass_inBounds_iff {cmd12 : TcmdInfo} {s : State} (hs : Receiving cmd12 s)
    (msg : Option (List Byte)) : InBounds cmd12 s msg ↔ BoundsOk cmd12 s msg := by
  by_cases hacc : ∃ rev, msg = some rev ∧ s.Accepts rev
  · obtain ⟨rev, rfl, hacc⟩ := hacc
    have hok : BoundsOk cmd12 s (some rev) ↔ ChunkOk cmd12 s.cmd11.flen rev := by
      constructor
      · exact fun h => h rev rfl hacc
      · intro h rev' hrev _
        obtain rfl := Option.some.inj hrev
        exact h
    have hdata : chunk rev ≠ [] ↔ chunkLen rev ≠ 0 := by
      rw [← List.length_pos_iff, length_chunk]
      bv_omega
    have hchunk : (∀ a ∈ s.chunkProgrammed (some rev), updataAppAddr + 4 ≤ a ∧ a < flashEnd) ↔
        (chunkLen rev ≠ 0 → isFlashAddress (chunkAddr s.cmd11.flen).toNat = true →
          updataAppAddr + 4 + s.cmd11.flen.toNat < flashEnd) := by
      rw [State.chunkProgrammed, if_pos hacc, hs.startAddr, chunk_inBounds_iff, hdata]
    have hflen : (∀ s', (s.recvPass cmd12 (some rev)).state = some s' →
          s'.cmd11.flen ≤ cmd12.flen) ↔
        Stalls (chunkAddr s.cmd11.flen).toNat (chunkLen rev).toNat ∨
          s.cmd11.flen + chunkLen rev ≤ cmd12.flen := by
      have hpass := recvPass_of_accepts cmd12 hacc
      rw [← length_chunk, ← hs.startAddr, ← writeByteToFlash_none_iff]
      split_ifs at hpass with hnone
      · rw [hpass]
        exact iff_of_true (fun s' h => by cases h) (Or.inl hnone)
      · obtain ⟨t, ht, hadv⟩ := hpass
        rw [ht, ← hadv.flen]
        simp only [Option.some.injEq, forall_eq', hnone, false_or]
    rw [hok, ChunkOk, ← hchunk, ← hflen]
    exact ⟨fun h => ⟨h.chunk, h.flen⟩, fun h => ⟨h.1, length_inBounds cmd12 s _, h.2⟩⟩
  · push Not at hacc
    obtain ⟨t, ht, -, hflen, -⟩ := recvPass_of_other cmd12 hacc
    refine iff_of_true ⟨?_, length_inBounds cmd12 s msg, ?_⟩ fun rev h h' => absurd h' (hacc rev h)
    · intro a ha
      cases msg with
      | none => cases ha
      | some rev =>
        rw [State.chunkProgrammed, if_neg (hacc rev rfl)] at ha
        cases ha
    · intro s' hs'
      obtain rfl := Option.some.inj (ht.symm.trans hs')
      rw [hflen]
      exact hs.flen

/-- A pass in bounds that does not end the loop. -/
theorem Receiving.again {cmd12 : TcmdInfo} {s s' : State} {msg : Option (List Byte)}
    (hs : Receiving cmd12 s) (h : InBounds cmd12 s msg) (hpass : s.recvPass cmd12 msg = .again s') :
    Receiving cmd12 s' := by
  have hstate : (s.recvPass cmd12 msg).state = some s' := by
    rw [hpass]
    rfl
  refine ⟨?_, h.flen s' hstate⟩
  by_cases hacc : ∃ rev, msg = some rev ∧ s.Accepts rev
  · obtain ⟨rev, rfl, hacc⟩ := hacc
    have hpass' := recvPass_of_accepts cmd12 hacc
    split_ifs at hpass'
    · rw [hpass'] at hpass
      cases hpass
    · obtain ⟨t, ht, hadv⟩ := hpass'
      obtain rfl := Option.some.inj (ht.symm.trans hstate)
      rw [hadv.startAddr, hadv.flen, hs.startAddr]
      exact BitVec.add_assoc ..
  · push Not at hacc
    obtain ⟨t, ht, hstart, hflen, -⟩ := recvPass_of_other cmd12 hacc
    obtain rfl := Option.some.inj (ht.symm.trans hstate)
    rw [hstart, hflen, hs.startAddr]

/-- If two conditions on a pass agree in the states of `Inv`, and the loop stays in these
    states as long as they hold, then they agree on all passes of the loop. -/
theorem passes_forall_iff {cmd12 : TcmdInfo} {Inv : State → Prop}
    {P Q : State → Option (List Byte) → Prop}
    (hiff : ∀ {s}, Inv s → ∀ msg, P s msg ↔ Q s msg)
    (hagain : ∀ {s msg t}, Inv s → Q s msg → s.recvPass cmd12 msg = .again t → Inv t)
    {s : State} (hs : Inv s) (msgs : List (Option (List Byte))) :
    (∀ x ∈ s.passes cmd12 msgs, P x.1 x.2) ↔ ∀ x ∈ s.passes cmd12 msgs, Q x.1 x.2 := by
  induction msgs generalizing s with
  | nil => exact iff_of_true (fun x hx => by cases hx) fun x hx => by cases hx
  | cons msg msgs ih =>
    rw [State.passes]
    simp only [List.mem_cons, forall_eq_or_imp]
    rw [hiff hs msg]
    refine and_congr_right fun hok => ?_
    cases hpass : s.recvPass cmd12 msg with
    | again t => exact ih (hagain hs hok hpass)
    | ended ret t => exact iff_of_true (fun x hx => by cases hx) fun x hx => by cases hx
    | hang => exact iff_of_true (fun x hx => by cases hx) fun x hx => by cases hx

theorem passes_inBounds_iff {cmd12 : TcmdInfo} {s : State} (hs : Receiving cmd12 s)
    (msgs : List (Option (List Byte))) :
    (∀ x ∈ s.passes cmd12 msgs, InBounds cmd12 x.1 x.2) ↔
      ∀ x ∈ s.passes cmd12 msgs, BoundsOk cmd12 x.1 x.2 := by
  have hagain : ∀ {s msg t}, Receiving cmd12 s → BoundsOk cmd12 s msg →
      s.recvPass cmd12 msg = .again t → Receiving cmd12 t :=
    fun hs hok hpass => hs.again ((pass_inBounds_iff hs _).2 hok) hpass
  exact passes_forall_iff (P := InBounds cmd12) (Q := BoundsOk cmd12)
    (fun hs msg => pass_inBounds_iff hs msg) hagain hs msgs

/-! ## Updates -/

/-- The state in which an accepted request starts to receive. -/
def start (d : Device) (send rev : List Byte) : State :=
  let cmd12 := TcmdInfo.ofBytes (rev.drop sizeofStPackCmd)
  let s : State :=
    { d with
      mem := (resume d.mem cmd12).2
      atStatus := .atSerUpdata
      startAddr := chunkAddr (resume d.mem cmd12).1
      packcmd := replyHeader (setupAppId d.sysSetup)
      cmd11 := { cmd12 with flen := (resume d.mem cmd12).1 }
      err := 0
      send := send
      sent := [] }
  s.sendPack

/-- `process_DEV_USER_RUPDATA` takes requests for the versions 300 to 400. -/
def AcceptsRequest (rev : List Byte) : Prop :=
  ¬ ((TcmdInfo.ofBytes (rev.drop sizeofStPackCmd)).ver < 300 ∨
    400 < (TcmdInfo.ofBytes (rev.drop sizeofStPackCmd)).ver)

instance (rev : List Byte) : Decidable (AcceptsRequest rev) := inferInstanceAs (Decidable (¬ _))

theorem process_eq_recvLoop {d : Device} {send rev : List Byte} (h : AcceptsRequest rev)
    (msgs : List (Option (List Byte))) : process_DEV_USER_RUPDATA d send rev msgs =
      (start d send rev).recvLoop (TcmdInfo.ofBytes (rev.drop sizeofStPackCmd)) msgs := by
  unfold process_DEV_USER_RUPDATA
  dsimp only
  rw [if_neg h]
  rfl

theorem receiving_start (d : Device) (send rev : List Byte) :
    Receiving (TcmdInfo.ofBytes (rev.drop sizeofStPackCmd)) (start d send rev) := by
  refine ⟨rfl, ?_⟩
  show (resume d.mem (TcmdInfo.ofBytes (rev.drop sizeofStPackCmd))).1 ≤ _
  unfold resume
  dsimp only
  split_ifs with herased hlt
  · exact Nat.zero_le _
  · exact BitVec.le_of_lt hlt
  · exact Nat.zero_le _

/-- An update for an accepted request never receives more than was announced and
    programs only the staging sectors, exactly if every message that it takes
    for a chunk meets `ChunkOk`. -/
theorem updateWrites_iff {d : Device} {send rev : List Byte} (h : AcceptsRequest rev)
    (msgs : List (Option (List Byte))) :
    let cmd12 := TcmdInfo.ofBytes (rev.drop sizeofStPackCmd)
    let s := start d send rev
    process_DEV_USER_RUPDATA d send rev msgs = s.recvLoop cmd12 msgs ∧
      (s.cmd11.flen ≤ cmd12.flen ∧ (∀ x ∈ s.passes cmd12 msgs, InBounds cmd12 x.1 x.2) ↔
        ∀ x ∈ s.passes cmd12 msgs, BoundsOk cmd12 x.1 x.2) := by
  have hstart := receiving_start d send rev
  refine ⟨process_eq_recvLoop h msgs, ?_⟩
  rw [and_iff_right hstart.flen]
  exact passes_inBounds_iff hstart msgs

/-- The passes over one message. -/
theorem passes_one (cmd12 : TcmdInfo) (s : State) (msg : Option (List Byte)) :
    s.passes cmd12 [msg] = [(s, msg)] := by
  rw [State.passes]
  cases s.recvPass cmd12 msg with
  | again t => rfl
  | ended ret t => rfl
  | hang => rfl

/-- A program of four bytes in one chunk. -/
theorem updateWrites_four :
    (start (exampleDevice fun _ => 0xFF) (List.replicate 1024 0)
        (exampleRequest 4)).cmd11.flen ≤ 4 ∧
      ∀ x ∈ (start (exampleDevice fun _ => 0xFF) (List.replicate 1024 0)
        (exampleRequest 4)).passes ⟨300, 0, 0, 4⟩ [some (exampleMessage 0 [1, 2, 3, 4])],
        InBounds ⟨300, 0, 0, 4⟩ x.1 x.2 := by
  have h12 : TcmdInfo.ofBytes ((exampleRequest 4).drop sizeofStPackCmd) = ⟨300, 0, 0, 4⟩ := by
    decide +kernel
  have hreq : AcceptsRequest (exampleRequest 4) := by decide +kernel
  have hupdate := @updateWrites_iff (exampleDevice fun _ => 0xFF) (List.replicate 1024 0) _ hreq
    [some (exampleMessage 0 [1, 2, 3, 4])]
  simp only [h12] at hupdate
  obtain ⟨-, hiff⟩ := hupdate
  refine hiff.2 fun x hx => ?_
  rw [passes_one] at hx
  obtain rfl := List.mem_singleton.1 hx
  rintro rev hrev -
  obtain rfl := Option.some.inj hrev
  exact ⟨fun _ _ => by decide +kernel, Or.inr (by decide +kernel)⟩

/-- A chunk of eight bytes is taken for a program of four. -/
theorem chunk_too_long : AcceptsRequest (exampleRequest 4) ∧
    ∃ x ∈ (start (exampleDevice fun _ => 0xFF) (List.replicate 1024 0) (exampleRequest 4)).passes
      ⟨300, 0, 0, 4⟩ [some (exampleMessage 0 [1, 2, 3, 4, 5, 6, 7, 8])],
      ¬ InBounds ⟨300, 0, 0, 4⟩ x.1 x.2 := by
  refine ⟨by decide +kernel, _, by rw [passes_one]; exact List.mem_singleton_self _, fun h => ?_⟩
  have hflen : ((start (exampleDevice fun _ => 0xFF) (List.replicate 1024 0)
      (exampleRequest 4)).recvPass ⟨300, 0, 0, 4⟩
      (some (exampleMessage 0 [1, 2, 3, 4, 5, 6, 7, 8]))).state.map (fun s => s.cmd11.flen) =
      some 8 := by
    decide +kernel
  obtain ⟨s', hs', h8⟩ := Option.map_eq_some_iff.1 hflen
  have hle := h.flen s' hs'
  rw [h8] at hle
  exact absurd hle (by decide)

end Abox.Update
