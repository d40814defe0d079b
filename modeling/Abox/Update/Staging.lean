import Abox.Update.Rupdata

/-!
# What a remote update stages

A successful update stages the announced bytes behind their number only if the
staging area was empty enough before. A download that is resumed writes the new
length over the old one, and flash can only clear bits.

* `recvPass_cases`: what one pass of the receiving loop does; `finish_cases`: what is done
  behind it.
* `recvLoop_fresh`, `recvLoop_cleared`: what a run leaves that ends with `ret = 1`.
* `rupdata_iff`: exactly when a successful update has staged the right bytes.
-/

namespace Abox.Update

open Nor Flash

/-! ## Specification -/

/-- The number of bytes in the chunk of a message. -/
def chunkLen (rev : List Byte) : BitVec 32 := (StPackCmd.ofBytes rev).len.signExtend 32 - 4

/-- The chunk of a message. -/
def chunk (rev : List Byte) : List Byte := readN (rev.drop 12) (chunkLen rev).toNat

/-- The message is a `TCMD_11` for the device. -/
def IsTcmd11 (id : BitVec 32) (rev : List Byte) : Prop :=
  (StPackCmd.ofBytes rev).id = id ∧ (StPackCmd.ofBytes rev).cmd = 11

instance (id : BitVec 32) (rev : List Byte) : Decidable (IsTcmd11 id rev) :=
  inferInstanceAs (Decidable (_ ∧ _))

/-- The accepted chunks, put together: those with the offset `got` that comes
    next, until there are `flen` bytes. -/
def accepted (id flen got : BitVec 32) : List (Option (List Byte)) → List Byte
  | [] => []
  | none :: msgs => accepted id flen got msgs
  | some rev :: msgs =>
    if IsTcmd11 id rev then
      if u32At rev 8 = got then
        chunk rev ++
          if got + chunkLen rev = flen then [] else accepted id flen (got + chunkLen rev) msgs
      else accepted id flen got msgs
    else []

/-- The staging area holds the length `flen` and that many bytes: the first
    `adv` bytes that were there before, and `image`. -/
def StagedRight (m0 : Mem) (adv flen : BitVec 32) (image : List Byte) (m : Mem) : Prop :=
  STMFLASH_ReadWord m updataAppAddr = flen ∧
    read m (updataAppAddr + 4) flen.toNat = read m0 (updataAppAddr + 4) adv.toNat ++ image

/-- The image can be staged: over an erased length, where none of its bits has
    been cleared; over another length only if the program is not longer, since
    then all is erased first. -/
def CanStage (m0 : Mem) (flen : BitVec 32) (image : List Byte) : Prop :=
  if STMFLASH_ReadWord m0 updataAppAddr = 0xffffffff then
    ∀ k (h : k < image.length), m0 (updataAppAddr + 4 + k) &&& image[k] = image[k]
  else flen ≤ STMFLASH_ReadWord m0 updataAppAddr

/-! ## The length in the flash -/

theorem readWord_eq (m : Mem) (a : ℕ) : STMFLASH_ReadWord m a =
    ((m (a + 3) ++ m (a + 2) : BitVec 16) ++ (m (a + 1) ++ m a : BitVec 16) : BitVec 32) := rfl

/-- The bits of a word are combined byte by byte. -/
theorem readWord_and {m m' m'' : Mem} {a : ℕ}
    (h : ∀ k, a ≤ k → k < a + 4 → m'' k = m k &&& m' k) :
    STMFLASH_ReadWord m'' a = STMFLASH_ReadWord m a &&& STMFLASH_ReadWord m' a := by
  rw [readWord_eq, readWord_eq, readWord_eq, BitVec.and_append, BitVec.and_append,
    BitVec.and_append, h a (by omega) (by omega), h (a + 1) (by omega) (by omega),
    h (a + 2) (by omega) (by omega), h (a + 3) (by omega) (by omega)]

/-- A programmed word is combined with the one that was there. -/
theorem readWord_programs (m : Mem) (a : ℕ) (w : BitVec 32) :
    STMFLASH_ReadWord (programs m a (Layout.word.encode w)) a = STMFLASH_ReadWord m a &&& w := by
  have hlen : (Layout.word.encode w).length = 4 := Layout.word.length_encode w
  have hnew : STMFLASH_ReadWord (programs (fun _ => 0xFF) a (Layout.word.encode w)) a = w := by
    show Layout.word.decode (read _ a 4) = w
    rw [← hlen, read_programs_of_erased fun _ _ _ => rfl, Layout.word.decode_encode]
  conv_rhs => rw [← hnew]
  apply readWord_and
  intro k h1 h2
  have hk : a ≤ k ∧ k - a < (Layout.word.encode w).length := by omega
  rw [programs_apply, programs_apply, dif_pos hk, dif_pos hk, and_erased]

theorem readWord_cleared {m m' : Mem} (h : Cleared m m') (a : ℕ) :
    STMFLASH_ReadWord m a &&& STMFLASH_ReadWord m' a = STMFLASH_ReadWord m' a :=
  (readWord_and fun k _ _ => (h k).symm).symm

/-- A word without bits that another one lacks is not larger. -/
theorem le_of_and_eq {v w : BitVec 32} (h : v &&& w = w) : w ≤ v := by
  show w.toNat ≤ v.toNat
  rw [← h, BitVec.toNat_and]
  exact Nat.and_le_left

/-! ## One pass -/

/-- What the chunk of a message does to the state. -/
structure Written (s s' : State) (rev : List Byte) : Prop where
  isTcmd11 : IsTcmd11 (setupAppId s.sysSetup) rev
  offset : u32At rev 8 = s.cmd11.flen
  mem : ∃ r, writeByteToFlash s.mem s.startAddr.toNat (chunk rev) = some (r, s'.mem)
  startAddr : s'.startAddr = s.startAddr + chunkLen rev
  flen : s'.cmd11.flen = s.cmd11.flen + chunkLen rev
  sysSetup : s'.sysSetup = s.sysSetup

/-- The message changes nothing that counts. -/
structure Skipped (s s' : State) : Prop where
  mem : s'.mem = s.mem
  startAddr : s'.startAddr = s.startAddr
  flen : s'.cmd11.flen = s.cmd11.flen
  sysSetup : s'.sysSetup = s.sysSetup

/-- The message is none of the chunks that count. -/
def NoChunk (s : State) : Option (List Byte) → Prop
  | none => True
  | some rev => IsTcmd11 (setupAppId s.sysSetup) rev ∧ u32At rev 8 ≠ s.cmd11.flen

/-- What a pass of the receiving loop does. -/
inductive PassSpec (s : State) (cmd12 : TcmdInfo) : Option (List Byte) → Pass → Prop
  | hang (msg : Option (List Byte)) : PassSpec s cmd12 msg .hang
  | failed (msg : Option (List Byte)) (s' : State) : PassSpec s cmd12 msg (.ended (-1) s')
  | skipped {msg : Option (List Byte)} {s' : State} :
    NoChunk s msg → Skipped s s' → PassSpec s cmd12 msg (.again s')
  | written {rev : List Byte} {s' : State} :
    Written s s' rev → s'.cmd11.flen ≠ cmd12.flen → PassSpec s cmd12 (some rev) (.again s')
  | last {rev : List Byte} {s' s'' : State} :
    Written s s' rev → s'.cmd11.flen = cmd12.flen →
    s''.mem = programs s'.mem updataAppAddr (Layout.word.encode cmd12.flen) →
    PassSpec s cmd12 (some rev) (.ended 1 s'')

theorem timeout_spec {s s1 : State} {cmd12 : TcmdInfo} {msg : Option (List Byte)}
    (hmsg : NoChunk s msg) (hskip : Skipped s s1) : PassSpec s cmd12 msg s1.timeout := by
  unfold State.timeout
  by_cases herr : 5 < s1.err
  · rw [if_pos herr]
    exact .failed msg s1
  · rw [if_neg herr]
    exact .skipped hmsg ⟨hskip.mem, hskip.startAddr, hskip.flen, hskip.sysSetup⟩

/-- The state behind an accepted chunk, with the memory it was written to. -/
def State.advance (s : State) (rev : List Byte) (mem : Mem) : State :=
  { s with
    packcmd := StPackCmd.ofBytes rev
    err := 0
    mem := mem
    startAddr := s.startAddr + chunkLen rev
    cmd11 := { s.cmd11 with flen := s.cmd11.flen + chunkLen rev } }

/-- A message that is none of the update ends the loop. -/
theorem recvPass_other (cmd12 : TcmdInfo) {s : State} {rev : List Byte}
    (h : ¬ IsTcmd11 (setupAppId s.sysSetup) rev) : s.recvPass cmd12 (some rev) =
      .ended (-1) { s with packcmd := StPackCmd.ofBytes rev, err := 0 } := by
  show (if IsTcmd11 (setupAppId s.sysSetup) rev then _ else _) = _
  rw [if_neg h]

/-- A chunk with another offset is answered like a timeout. -/
theorem recvPass_mismatch (cmd12 : TcmdInfo) {s : State} {rev : List Byte}
    (h : IsTcmd11 (setupAppId s.sysSetup) rev) (hoff : u32At rev 8 ≠ s.cmd11.flen) :
    s.recvPass cmd12 (some rev) =
      State.timeout { s with packcmd := StPackCmd.ofBytes rev, err := 0 } := by
  show (if IsTcmd11 (setupAppId s.sysSetup) rev then _ else _) = _
  rw [if_pos h]
  show (if u32At rev 8 = s.cmd11.flen then _ else _) = _
  rw [if_neg hoff]

/-- The chunk that comes next is written. -/
theorem recvPass_chunk (cmd12 : TcmdInfo) {s : State} {rev : List Byte}
    (h : IsTcmd11 (setupAppId s.sysSetup) rev) (hoff : u32At rev 8 = s.cmd11.flen) :
    s.recvPass cmd12 (some rev) =
      match writeByteToFlash s.mem s.startAddr.toNat (chunk rev) with
      | none => .hang
      | some (_, mem) => (s.advance rev mem).written cmd12 := by
  show (if IsTcmd11 (setupAppId s.sysSetup) rev then _ else _) = _
  rw [if_pos h]
  show (if u32At rev 8 = s.cmd11.flen then _ else _) = _
  rw [if_pos hoff]
  rfl

/-- Before the last chunk there is an acknowledgement. -/
theorem written_of_ne {s : State} {cmd12 : TcmdInfo} (h : s.cmd11.flen ≠ cmd12.flen) :
    s.written cmd12 =
      .again { s with packcmd := replyHeader (setupAppId s.sysSetup) }.sendPack := if_neg h

/-- Behind the last chunk the length is written, which never hangs, and checked. -/
theorem written_of_eq {s : State} {cmd12 : TcmdInfo} (h : s.cmd11.flen = cmd12.flen) :
    s.written cmd12 =
      let s := { s with
        mem := programs s.mem updataAppAddr (Layout.word.encode cmd12.flen) }
      if checkFlashFile s.mem = .rtEok then .ended 1 s.sendPack else .ended (-1) s := by
  have hfour : (Layout.word.encode s.cmd11.flen).length = 4 := Layout.word.length_encode _
  have hwrite : writeByteToFlash s.mem updataAppAddr (Layout.word.encode s.cmd11.flen) =
      some (.rtEok, programs s.mem updataAppAddr (Layout.word.encode s.cmd11.flen)) :=
    writeByteToFlash_eq (List.ne_nil_of_length_eq_add_one hfour) (by decide)
      (by rw [hfour]; decide)
  rw [State.written, if_pos h, hwrite, h]

theorem written_spec {s s1 : State} {rev : List Byte} (cmd12 : TcmdInfo)
    (h : Written s s1 rev) : PassSpec s cmd12 (some rev) (s1.written cmd12) := by
  by_cases hend : s1.cmd11.flen = cmd12.flen
  · rw [written_of_eq hend]
    dsimp only
    split_ifs
    · exact .last h hend rfl
    · exact .failed _ _
  · rw [written_of_ne hend]
    exact .written ⟨h.isTcmd11, h.offset, h.mem, h.startAddr, h.flen, h.sysSetup⟩ hend

theorem recvPass_spec (s : State) (cmd12 : TcmdInfo) (msg : Option (List Byte)) :
    PassSpec s cmd12 msg (s.recvPass cmd12 msg) := by
  cases msg with
  | none => exact timeout_spec trivial ⟨rfl, rfl, rfl, rfl⟩
  | some rev =>
    by_cases h11 : IsTcmd11 (setupAppId s.sysSetup) rev
    · by_cases hoff : u32At rev 8 = s.cmd11.flen
      · rw [recvPass_chunk cmd12 h11 hoff]
        cases hw : writeByteToFlash s.mem s.startAddr.toNat (chunk rev) with
        | none => exact .hang _
        | some p => exact written_spec cmd12 ⟨h11, hoff, ⟨p.1, hw⟩, rfl, rfl, rfl⟩
      · rw [recvPass_mismatch cmd12 h11 hoff]
        exact timeout_spec ⟨h11, hoff⟩ ⟨rfl, rfl, rfl, rfl⟩
    · rw [recvPass_other cmd12 h11]
      exact .failed _ _

/-! ## Runs -/

/-- `t` is what is left behind the loop when `ret` is returned. A success sends nothing and
    leaves the staging area alone. -/
structure Finished (s : State) (ret : ℤ) (t : State) : Prop where
  atStatus : t.atStatus = .atFree
  sent : s.sent <+: t.sent
  sent_one : ret = 1 → t.sent = s.sent
  mem_one : ret = 1 → ∀ k, updataAppAddr ≤ k → t.mem k = s.mem k

theorem SaveSetup_staging {mem mem' : Mem} {setup : List Byte} (h : SaveSetup mem setup = some mem')
    {k : ℕ} (hk : updataAppAddr ≤ k) : mem' k = mem k := by
  unfold SaveSetup at h
  split_ifs at h
  · exact setSecret_1_outside h (le_trans (by decide) hk)
  · cases h
    rfl

/-- The call returns behind the loop, if saving the setup does not hang. -/
theorem finish_cases (s : State) (cmd12 : TcmdInfo) (ret : ℤ) :
    s.finish cmd12 ret = .hang ∨ ∃ t, s.finish cmd12 ret = .returned ret t ∧ Finished s ret t := by
  unfold State.finish
  dsimp only
  split_ifs with hret
  · cases hsave : SaveSetup s.mem (setSetupVer s.sysSetup 0) with
    | none => exact Or.inl rfl
    | some m =>
      exact Or.inr ⟨_, rfl, rfl, List.prefix_rfl, fun _ => rfl, fun _ _ hk =>
        SaveSetup_staging hsave hk⟩
  · exact Or.inr ⟨_, rfl, rfl, List.prefix_rfl, fun _ => rfl, fun _ _ _ => rfl⟩
  · exact Or.inr ⟨_, rfl, rfl, List.prefix_append _ _, fun h => absurd h hret,
      fun h => absurd h hret⟩

theorem finish_ne_running (s : State) (cmd12 : TcmdInfo) (ret : ℤ) (t : State) :
    s.finish cmd12 ret ≠ .running t := by
  intro h
  obtain hfin | ⟨_, hfin, -⟩ := finish_cases s cmd12 ret
  all_goals
    rw [hfin] at h
    cases h

theorem finish_returned {s t : State} {cmd12 : TcmdInfo} {ret ret' : ℤ}
    (h : s.finish cmd12 ret = .returned ret' t) : ret = ret' ∧ Finished s ret t := by
  obtain hfin | ⟨_, hfin, ht⟩ := finish_cases s cmd12 ret
  · rw [hfin] at h
    cases h
  · rw [hfin] at h
    cases h
    exact ⟨rfl, ht⟩

section

variable (cmd12 : TcmdInfo) (I : State → List (Option (List Byte)) → Prop)

/-- What every pass keeps that does not end the loop holds before the last pass. -/
theorem recvLoop_returned
    (hskip : ∀ {s s' msg msgs}, I s (msg :: msgs) → NoChunk s msg → Skipped s s' → I s' msgs)
    (hwritten : ∀ {s s' rev msgs}, I s (some rev :: msgs) → Written s s' rev →
      s'.cmd11.flen ≠ cmd12.flen → I s' msgs)
    {s s' : State} {msgs : List (Option (List Byte))} (hI : I s msgs)
    (hrun : s.recvLoop cmd12 msgs = .returned 1 s') :
    ∃ s1 s2 rev msgs', I s1 (some rev :: msgs') ∧ Written s1 s2 rev ∧
      s2.cmd11.flen = cmd12.flen ∧ ∀ k, updataAppAddr ≤ k →
        s'.mem k = programs s2.mem updataAppAddr (Layout.word.encode cmd12.flen) k := by
  induction msgs generalizing s with
  | nil => cases hrun
  | cons msg msgs ih =>
    rw [State.recvLoop] at hrun
    have hspec := recvPass_spec s cmd12 msg
    generalize s.recvPass cmd12 msg = pass at hspec hrun
    cases hspec with
    | hang => cases hrun
    | failed _ s1 => cases (finish_returned hrun).1
    | skipped hmsg hs => exact ih (hskip hI hmsg hs) hrun
    | written hw hne => exact ih (hwritten hI hw hne) hrun
    | last hw hend hmem =>
      refine ⟨s, _, _, msgs, hI, hw, hend, fun k hk => ?_⟩
      rw [(finish_returned hrun).2.mem_one rfl k hk, hmem]

end

/-- The state of a download into an area that was `base` before: the chunks put
    together so far are `img`. -/
structure Fresh (base : Mem) (img : List Byte) (s : State) : Prop where
  mem : s.mem = programs base (updataAppAddr + 4) img
  startAddr : s.startAddr.toNat = updataAppAddr + 4 + img.length
  flen : s.cmd11.flen.toNat = img.length
  bound : updataAppAddr + 4 + img.length ≤ 0x080FFFFF

theorem Fresh.skipped {base : Mem} {img : List Byte} {s s' : State} (h : Fresh base img s)
    (hs : Skipped s s') : Fresh base img s' :=
  ⟨hs.mem.trans h.mem, by rw [hs.startAddr, h.startAddr], by rw [hs.flen, h.flen], h.bound⟩

theorem Fresh.written {base : Mem} {img : List Byte} {s s' : State} {rev : List Byte}
    (h : Fresh base img s) (hw : Written s s' rev) : Fresh base (img ++ chunk rev) s' := by
  have hu : updataAppAddr = 0x080A0000 := rfl
  have hstart := h.startAddr
  have hbound := h.bound
  have hchunk : (chunk rev).length = (chunkLen rev).toNat := length_readN ..
  obtain ⟨r, hmem⟩ := hw.mem
  obtain ⟨hprog, hflash⟩ := writeByteToFlash_some hmem (by omega)
  have hend := le_of_isFlashAddress (by omega) (by omega) hflash
  refine ⟨?_, ?_, ?_, ?_⟩
  · rw [hprog, h.mem, programs_append, hstart]
  · rw [hw.startAddr, List.length_append, hchunk]
    bv_omega
  · have hflen := h.flen
    rw [hw.flen, List.length_append, hchunk]
    bv_omega
  · rw [List.length_append]
    omega

theorem recvLoop_fresh {base : Mem} {cmd12 : TcmdInfo} {s s' : State}
    {msgs : List (Option (List Byte))} (h : Fresh base [] s)
    (hrun : s.recvLoop cmd12 msgs = .returned 1 s') :
    (accepted (setupAppId s.sysSetup) cmd12.flen s.cmd11.flen msgs).length = cmd12.flen.toNat ∧
      updataAppAddr + 4 +
        (accepted (setupAppId s.sysSetup) cmd12.flen s.cmd11.flen msgs).length ≤ 0x080FFFFF ∧
      ∀ k, updataAppAddr ≤ k → s'.mem k =
        programs (programs base (updataAppAddr + 4)
          (accepted (setupAppId s.sysSetup) cmd12.flen s.cmd11.flen msgs))
          updataAppAddr (Layout.word.encode cmd12.flen) k := by
  -- the chunks so far and those to come are always the same in all
  obtain ⟨s1, s2, rev, msgs', ⟨img, hsetup, hfresh, himg⟩, hw, hend, hmem⟩ :=
    recvLoop_returned cmd12
      (fun t ms => ∃ img, t.sysSetup = s.sysSetup ∧ Fresh base img t ∧
        img ++ accepted (setupAppId s.sysSetup) cmd12.flen t.cmd11.flen ms =
          accepted (setupAppId s.sysSetup) cmd12.flen s.cmd11.flen msgs)
      (by
        rintro t t' msg ms ⟨img, hsetup, hfresh, himg⟩ hmsg hs
        refine ⟨img, hs.sysSetup.trans hsetup, hfresh.skipped hs, ?_⟩
        rw [← himg, hs.flen]
        cases msg with
        | none => rfl
        | some rev =>
          rw [NoChunk, hsetup] at hmsg
          rw [accepted, if_pos hmsg.1, if_neg hmsg.2])
      (by
        rintro t t' rev ms ⟨img, hsetup, hfresh, himg⟩ hw hne
        refine ⟨img ++ chunk rev, hw.sysSetup.trans hsetup, hfresh.written hw, ?_⟩
        have h11 := hw.isTcmd11
        rw [hsetup] at h11
        rw [hw.flen] at hne ⊢
        rw [← himg, accepted, if_pos h11, if_pos hw.offset, if_neg hne, List.append_assoc])
      ⟨[], rfl, h, rfl⟩ hrun
  have hlast := hfresh.written hw
  have h11 := hw.isTcmd11
  rw [hsetup] at h11
  rw [accepted, if_pos h11, if_pos hw.offset, if_pos (hw.flen.symm.trans hend),
    List.append_nil] at himg
  rw [← himg, ← hend]
  refine ⟨hlast.flen.symm, hlast.bound, fun k hk => ?_⟩
  rw [hmem k hk, hlast.mem, hend]

theorem recvLoop_cleared {m : Mem} {cmd12 : TcmdInfo} {s s' : State}
    {msgs : List (Option (List Byte))} (h : Cleared m s.mem)
    (hrun : s.recvLoop cmd12 msgs = .returned 1 s') :
    ∃ m', Cleared m m' ∧ ∀ k, updataAppAddr ≤ k →
      s'.mem k = programs m' updataAppAddr (Layout.word.encode cmd12.flen) k := by
  have hstep : ∀ {t t' : State} {rev : List Byte}, Cleared m t.mem → Written t t' rev →
      Cleared m t'.mem := by
    intro t t' rev ht hw
    obtain ⟨r, hmem⟩ := hw.mem
    exact ht.trans (cleared_of_writeByteToFlash hmem)
  obtain ⟨s1, s2, rev, msgs', hs1, hw, -, hmem⟩ := recvLoop_returned cmd12
    (fun t _ => Cleared m t.mem) (fun ht _ hs => by rw [hs.mem]; exact ht)
    (fun ht hw _ => hstep ht hw) h hrun
  exact ⟨s2.mem, hstep hs1 hw, hmem⟩

/-! ## Updates -/

/-- Over an erased length the length is right, and the rest is if the image has
    no bit that had been cleared before. -/
theorem stagedRight_iff_of_fresh {m0 base m : Mem} {flen : BitVec 32} {image : List Byte}
    (hbase : STMFLASH_ReadWord base updataAppAddr = 0xffffffff) (hlen : image.length = flen.toNat)
    (hm : ∀ k, updataAppAddr ≤ k → m k =
      programs (programs base (updataAppAddr + 4) image) updataAppAddr
        (Layout.word.encode flen) k) :
    StagedRight m0 0 flen image m ↔
      ∀ k (h : k < image.length), base (updataAppAddr + 4 + k) &&& image[k] = image[k] := by
  have hword : STMFLASH_ReadWord m updataAppAddr = flen := by
    rw [readWord_congr fun k h1 _ => hm k h1, readWord_programs,
      readWord_congr fun k _ h2 => programs_of_disjoint (Or.inl h2), hbase]
    exact BitVec.allOnes_and
  have hread : read m (updataAppAddr + 4) flen.toNat =
      read (programs base (updataAppAddr + 4) image) (updataAppAddr + 4) image.length := by
    have hfour : (Layout.word.encode flen).length = 4 := Layout.word.length_encode flen
    rw [hlen]
    apply read_congr
    intro k h1 _
    rw [hm k (by omega)]
    exact programs_of_disjoint (Or.inr (by omega))
  unfold StagedRight
  rw [hread, ← programs_eq_iff]
  exact ⟨fun h => h.2, fun h => ⟨hword, h⟩⟩

theorem erased_clearSaveDataSector (m : Mem) :
    Erased (clearSaveDataSector m) updataAppAddr 0x60000 := by
  have h9 : Erased (erase m updataAppAddr 0x20000) updataAppAddr 0x20000 := erased_erase _ _ _
  exact (h9.extend 0x20000).extend 0x20000

theorem resume_of_erased {m : Mem} (cmd12 : TcmdInfo)
    (h : STMFLASH_ReadWord m updataAppAddr = 0xffffffff) : resume m cmd12 = (0, m) := if_pos h

/-- The state in which a successful update starts to receive. -/
structure Started (d : Device) (cmd12 : TcmdInfo) (s : State) : Prop where
  mem : s.mem = (resume d.mem cmd12).2
  flen : s.cmd11.flen = (resume d.mem cmd12).1
  startAddr : s.startAddr = BitVec.ofNat 32 updataAppAddr + 4 + (resume d.mem cmd12).1
  sysSetup : s.sysSetup = d.sysSetup

theorem process_returned {d : Device} {send rev : List Byte} {msgs : List (Option (List Byte))}
    {s' : State} (h : process_DEV_USER_RUPDATA d send rev msgs = .returned 1 s') :
    ∃ s, Started d (TcmdInfo.ofBytes (rev.drop sizeofStPackCmd)) s ∧
      s.recvLoop (TcmdInfo.ofBytes (rev.drop sizeofStPackCmd)) msgs = .returned 1 s' := by
  unfold process_DEV_USER_RUPDATA at h
  dsimp only at h
  split_ifs at h
  · cases h
  · exact ⟨_, ⟨rfl, rfl, rfl, rfl⟩, h⟩

theorem Started.fresh {d : Device} {cmd12 : TcmdInfo} {s : State} {base : Mem}
    (h : Started d cmd12 s) (hres : resume d.mem cmd12 = (0, base)) : Fresh base [] s := by
  refine ⟨?_, ?_, ?_, by decide⟩
  · rw [h.mem, hres]
    rfl
  · rw [h.startAddr, hres]
    rfl
  · rw [h.flen, hres]
    rfl

/-- A download from the start, into `base`. -/
theorem stagedRight_of_start {d : Device} {cmd12 : TcmdInfo} {s s' : State} {base : Mem}
    {msgs : List (Option (List Byte))} (hs : Started d cmd12 s)
    (hrun : s.recvLoop cmd12 msgs = .returned 1 s') (hres : resume d.mem cmd12 = (0, base))
    (hbase : STMFLASH_ReadWord base updataAppAddr = 0xffffffff) :
    StagedRight d.mem 0 cmd12.flen (accepted (setupAppId d.sysSetup) cmd12.flen 0 msgs) s'.mem ↔
      ∀ k (h : k < (accepted (setupAppId d.sysSetup) cmd12.flen 0 msgs).length),
        base (updataAppAddr + 4 + k) &&&
          (accepted (setupAppId d.sysSetup) cmd12.flen 0 msgs)[k] =
        (accepted (setupAppId d.sysSetup) cmd12.flen 0 msgs)[k] := by
  have hflen : s.cmd11.flen = 0 := by rw [hs.flen, hres]
  obtain ⟨hlen, -, hmem⟩ := recvLoop_fresh (hs.fresh hres) hrun
  rw [hs.sysSetup, hflen] at hlen hmem
  exact stagedRight_iff_of_fresh hbase hlen hmem

/-- A download into the erased sectors. -/
theorem stagedRight_of_erased {d : Device} {cmd12 : TcmdInfo} {s s' : State} {base : Mem}
    {msgs : List (Option (List Byte))} (hs : Started d cmd12 s)
    (hrun : s.recvLoop cmd12 msgs = .returned 1 s') (hres : resume d.mem cmd12 = (0, base))
    (hbase : Erased base updataAppAddr 0x60000) :
    StagedRight d.mem 0 cmd12.flen (accepted (setupAppId d.sysSetup) cmd12.flen 0 msgs)
      s'.mem := by
  have hflen : s.cmd11.flen = 0 := by rw [hs.flen, hres]
  obtain ⟨-, hbound, -⟩ := recvLoop_fresh (hs.fresh hres) hrun
  rw [hs.sysSetup, hflen] at hbound
  rw [stagedRight_of_start hs hrun hres (readWord_of_erased (hbase.mono le_rfl (by decide)))]
  intro k hk
  have hu : updataAppAddr = 0x080A0000 := rfl
  rw [hbase _ (by omega) (by omega), and_erased]

/-- A resumed download cannot write its length. -/
theorem readWord_of_resumed {d : Device} {cmd12 : TcmdInfo} {s s' : State}
    {msgs : List (Option (List Byte))} (hs : Started d cmd12 s)
    (hrun : s.recvLoop cmd12 msgs = .returned 1 s') (hmem : (resume d.mem cmd12).2 = d.mem)
    (hlt : STMFLASH_ReadWord d.mem updataAppAddr < cmd12.flen) :
    STMFLASH_ReadWord s'.mem updataAppAddr ≠ cmd12.flen := by
  intro hword
  have hstart : Cleared d.mem s.mem := by
    rw [hs.mem, hmem]
    exact Cleared.refl d.mem
  obtain ⟨m, hm, hfinal⟩ := recvLoop_cleared hstart hrun
  rw [readWord_congr fun k h1 _ => hfinal k h1, readWord_programs] at hword
  have hle : cmd12.flen ≤ STMFLASH_ReadWord d.mem updataAppAddr :=
    BitVec.le_trans (le_of_and_eq hword) (le_of_and_eq (readWord_cleared hm updataAppAddr))
  exact absurd hlt (BitVec.not_lt.2 hle)

/-- A successful update has staged the right bytes exactly if they could be
    staged: if the length was erased and no bit of the image had been cleared, or
    if all was erased first because the length that was there was not smaller. -/
theorem rupdata_iff {d : Device} {send rev : List Byte} {msgs : List (Option (List Byte))}
    {s' : State} (h : process_DEV_USER_RUPDATA d send rev msgs = .returned 1 s') :
    let cmd12 := TcmdInfo.ofBytes (rev.drop sizeofStPackCmd)
    let adv := (resume d.mem cmd12).1
    let image := accepted (setupAppId d.sysSetup) cmd12.flen adv msgs
    StagedRight d.mem adv cmd12.flen image s'.mem ↔ CanStage d.mem cmd12.flen image := by
  obtain ⟨s, hs, hrun⟩ := process_returned h
  generalize TcmdInfo.ofBytes (rev.drop sizeofStPackCmd) = cmd12 at hs hrun
  dsimp only
  unfold CanStage
  by_cases herased : STMFLASH_ReadWord d.mem updataAppAddr = 0xffffffff
  · have hres := resume_of_erased cmd12 herased
    rw [if_pos herased, hres]
    exact stagedRight_of_start hs hrun hres herased
  · rw [if_neg herased]
    by_cases hlt : STMFLASH_ReadWord d.mem updataAppAddr < cmd12.flen
    · have hres : resume d.mem cmd12 = (STMFLASH_ReadWord d.mem updataAppAddr, d.mem) := by
        rw [resume, if_neg herased, if_pos hlt]
      refine ⟨fun hright => ?_, fun hle => absurd hlt (BitVec.not_lt.2 hle)⟩
      exact absurd hright.1 (readWord_of_resumed hs hrun (congrArg Prod.snd hres) hlt)
    · have hres : resume d.mem cmd12 = (0, clearSaveDataSector d.mem) := by
        rw [resume, if_neg herased, if_neg hlt]
      rw [hres]
      refine ⟨fun _ => BitVec.not_lt.1 hlt, fun _ => ?_⟩
      exact stagedRight_of_erased hs hrun hres (erased_clearSaveDataSector d.mem)

/-! ## Two updates -/

/-- The value of `ret` and the staged length. -/
def Result.report : Result → Option (ℤ × BitVec 32)
  | .returned ret s => some (ret, STMFLASH_ReadWord s.mem updataAppAddr)
  | _ => none

/-- A result with `ret = 1` is a returned one. -/
theorem Result.eq_of_report {r : Result} {ret : ℤ} {w : BitVec 32}
    (h : r.report = some (ret, w)) :
    ∃ s, r = .returned ret s ∧ STMFLASH_ReadWord s.mem updataAppAddr = w := by
  cases r with
  | returned ret' s =>
    injection h with h
    injection h with h1 h2
    exact ⟨s, by rw [h1], h2⟩
  | running s => cases h
  | hang => cases h

/-- The device 1 with the program version 300. -/
def exampleDevice (m : Mem) : Device where
  mem := m
  atStatus := .atFree
  sysSetup := setSetupVer (List.replicate 252 0 ++ [1] ++ List.replicate 53 0) 300

/-- A request for version 300 with `flen` bytes. -/
def exampleRequest (flen : Byte) : List Byte :=
  packcmdBytes ⟨0x23, 12, 1, 16⟩ ++ (TcmdInfo.mk 300 0 0 (flen.setWidth 32)).toBytes

/-- A message with a chunk at the offset `offset`. -/
def exampleMessage (offset : Byte) (data : List Byte) : List Byte :=
  packcmdBytes ⟨0x23, 11, 1, BitVec.ofNat 16 (data.length + 4)⟩ ++ [offset, 0, 0, 0] ++ data

/-- Over an erased area, the announced bytes are staged. -/
theorem rupdata_erased :
    ∃ s', process_DEV_USER_RUPDATA (exampleDevice fun _ => 0xFF) (List.replicate 1024 0)
        (exampleRequest 4) [some (exampleMessage 0 [0xFF, 0xFF, 0xFF, 0xFF])] = .returned 1 s' ∧
      StagedRight (fun _ => 0xFF) 0 4 [0xFF, 0xFF, 0xFF, 0xFF] s'.mem := by
  obtain ⟨s', hrun, -⟩ := Result.eq_of_report (show Result.report (process_DEV_USER_RUPDATA
    (exampleDevice fun _ => 0xFF) (List.replicate 1024 0) (exampleRequest 4)
    [some (exampleMessage 0 [0xFF, 0xFF, 0xFF, 0xFF])]) = some (1, 4) by decide +kernel)
  have hiff := rupdata_iff hrun
  have h12 : TcmdInfo.ofBytes ((exampleRequest 4).drop sizeofStPackCmd) = ⟨300, 0, 0, 4⟩ := by
    decide +kernel
  have hword : STMFLASH_ReadWord (exampleDevice fun _ => 0xFF).mem updataAppAddr = 0xffffffff :=
    readWord_of_erased fun _ _ _ => rfl
  have hres := resume_of_erased ⟨300, 0, 0, 4⟩ hword
  have himage : accepted (setupAppId (exampleDevice fun _ => 0xFF).sysSetup) 4 0
      [some (exampleMessage 0 [0xFF, 0xFF, 0xFF, 0xFF])] = [0xFF, 0xFF, 0xFF, 0xFF] := by
    decide +kernel
  simp only [h12, hres, himage] at hiff
  refine ⟨s', hrun, hiff.2 ?_⟩
  rw [CanStage, if_pos hword]
  exact fun k hk => and_erased _

/-- Staged image: the complete program `FF FF FF FF` of an earlier update. -/
def earlierImage : Mem := fun k =>
  if k = updataAppAddr then 4 else if updataAppAddr < k ∧ k < updataAppAddr + 4 then 0 else 0xFF

/-- A program of five bytes over the complete one of four: four bytes are
    announced as received, the fifth is accepted, the update reports success, and
    the staged length is still 4. -/
theorem rupdata_keeps_length :
    (resume earlierImage ⟨300, 0, 0, 5⟩).1 = 4 ∧
      accepted 1 5 4 [some (exampleMessage 4 [0x55])] = [0x55] ∧
      ∃ s', process_DEV_USER_RUPDATA (exampleDevice earlierImage) (List.replicate 1024 0)
          (exampleRequest 5) [some (exampleMessage 4 [0x55])] = .returned 1 s' ∧
        ¬ StagedRight earlierImage 4 5 [0x55] s'.mem := by
  obtain ⟨s', hrun, hword⟩ := Result.eq_of_report (show Result.report (process_DEV_USER_RUPDATA
    (exampleDevice earlierImage) (List.replicate 1024 0) (exampleRequest 5)
    [some (exampleMessage 4 [0x55])]) = some (1, 4) by decide +kernel)
  refine ⟨by decide +kernel, by decide +kernel, s', hrun, fun hright => ?_⟩
  have hfive : STMFLASH_ReadWord s'.mem updataAppAddr = 5 := hright.1
  rw [hword] at hfive
  cases hfive

end Abox.Update
