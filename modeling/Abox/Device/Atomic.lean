import Abox.Device.Kept

/-!
# Power failures in an update and in the boots after it

A remote update into an area with an erased length, cut at any operation, and then any
number of boots, cut as well.

* `update_atomic`: the application that is started then is the old one or the whole
  new one, if the boot finds a length that lies in the flash.
-/

namespace Abox.Device

open Nor PowerCut Flash Update Boot

/-! ## What is staged -/

/-- What can be in the staging area in the course of an update with the program `image`,
    of the length `flen`, if it was `base` before. -/
inductive Remains (base : Mem) (flen : BitVec 32) (image : List Byte) : Mem → Prop
  | staging {m : Mem} (p : List Byte) : p <+: image →
    (∀ k, updataAppAddr ≤ k → m k = programs base (updataAppAddr + 4) p k) →
    Remains base flen image m
  | length {m : Mem} (n : ℕ) : image.length = flen.toNat →
    (∀ k, updataAppAddr ≤ k → m k = programs (programs base (updataAppAddr + 4) image)
      updataAppAddr ((Layout.word.encode flen).take n) k) →
    Remains base flen image m
  | cleared {m m' : Mem} : Remains base flen image m → Erased m' updataAppAddr 4 →
    (∀ k, updataAppAddr ≤ k → m' k = m k ∨ m' k = 0xFF) → Remains base flen image m'

/-- Each byte of the image is one that can be programmed over what is in its place. -/
def Programmable (image : List Byte) (m : Mem) : Prop :=
  ∀ k (h : k < image.length), m (updataAppAddr + 4 + k) &&& image[k] = image[k]

variable {base : Mem} {flen : BitVec 32} {image : List Byte}

theorem Remains.congr {m m' : Mem} (h : Remains base flen image m)
    (hm : ∀ k, updataAppAddr ≤ k → m' k = m k) : Remains base flen image m' := by
  cases h with
  | staging p hp h => exact .staging p hp fun k hk => (hm k hk).trans (h k hk)
  | length n hlen h => exact .length n hlen fun k hk => (hm k hk).trans (h k hk)
  | cleared hr he hor =>
    refine .cleared hr (fun k h1 h2 => (hm k h1).trans (he k h1 h2)) fun k hk => ?_
    rw [hm k hk]
    exact hor k hk

/-- What has been staged of an image does not prevent it, or one that goes on behind it,
    from being staged again. -/
theorem Remains.programmable {whole : List Byte} {m : Mem} (h : Remains base flen image m)
    (himage : image <+: whole) (hbase : Programmable whole base) : Programmable whole m := by
  have hstaged : ∀ p, p <+: image → ∀ k (hk : k < whole.length),
      programs base (updataAppAddr + 4) p (updataAppAddr + 4 + k) &&& whole[k] = whole[k] := by
    intro p hp k hk
    by_cases hkp : k < p.length
    · rw [programs_of_lt hkp, (hp.trans himage).getElem hkp, BitVec.and_assoc, BitVec.and_self]
      exact hbase k hk
    · rw [programs_of_disjoint (Or.inr (by omega))]
      exact hbase k hk
  induction h with
  | staging p hp h =>
    intro k hk
    rw [h _ (by omega)]
    exact hstaged p hp k hk
  | length n hlen h =>
    intro k hk
    have hfour : (Layout.word.encode flen).length = 4 := Layout.word.length_encode flen
    rw [h _ (by omega), programs_of_disjoint]
    · exact hstaged image List.prefix_rfl k hk
    · rw [List.length_take]
      omega
  | cleared _ _ hor ih =>
    intro k hk
    rcases hor (updataAppAddr + 4 + k) (by omega) with hsame | hff
    · rw [hsame]
      exact ih k hk
    · rw [hff]
      exact and_erased _

/-! ## The length word -/

/-- A word whose last byte is erased is too large for the flash. -/
theorem readWord_of_last {m : Mem} {a : ℕ} (h : m (a + 3) = 0xFF) :
    0xFF000000 ≤ (STMFLASH_ReadWord m a).toNat := by
  rw [readWord_eq, h, BitVec.toNat_append]
  refine le_trans ?_ Nat.left_le_or
  rw [BitVec.toNat_append, Nat.shiftLeft_eq]
  have : (0xFF : BitVec 8).toNat <<< 8 ≤ (0xFF : BitVec 8).toNat <<< 8 ||| (m (a + 2)).toNat :=
    Nat.left_le_or
  have hff : (0xFF : BitVec 8).toNat <<< 8 = 0xFF00 := rfl
  omega

/-- An erased word reads as one, and only it. -/
theorem erased_of_readWord {m : Mem} {a : ℕ} (h : STMFLASH_ReadWord m a = 0xffffffff) :
    Erased m a 4 := by
  have hread : read m a 4 = Layout.word.encode 0xffffffff := by
    rw [← h]
    exact (Layout.word.encode_decode _ (length_read m a 4)).symm
  have hff : Layout.word.encode 0xffffffff = [0xFF, 0xFF, 0xFF, 0xFF] := by decide
  rw [hff] at hread
  intro k h1 h2
  have hget : (read m a 4)[k - a]? = some (m k) := by
    rw [List.getElem?_eq_getElem (by rw [length_read]; omega), getElem_read,
      show a + (k - a) = k by omega]
  rw [hread] at hget
  have : k - a = 0 ∨ k - a = 1 ∨ k - a = 2 ∨ k - a = 3 := by omega
  rcases this with h | h | h | h
  all_goals
    rw [h] at hget
    exact (Option.some.inj hget).symm

/-- The check of a boot reads only the flash. -/
def ReadsFlash (m : Mem) : Prop :=
  STMFLASH_ReadWord m updataAppAddr = 0xffffffff ∨ updataAppAddr + 4 + stagedLen m ≤ flashEnd

/-- With a length that lies in the flash, the area has no length or the whole image. -/
theorem Remains.whole {m : Mem} (h : Remains base flen image m)
    (hbase : STMFLASH_ReadWord base updataAppAddr = 0xffffffff) (hread : ReadsFlash m) :
    STMFLASH_ReadWord m updataAppAddr = 0xffffffff ∨
      (STMFLASH_ReadWord m updataAppAddr = flen ∧ image.length = flen.toNat ∧
        ∀ k (hk : k < image.length), m (updataAppAddr + 4 + k) =
          base (updataAppAddr + 4 + k) &&& image[k]) := by
  have hfour : (Layout.word.encode flen).length = 4 := Layout.word.length_encode flen
  have herased := erased_of_readWord hbase
  cases h with
  | staging p hp h =>
    left
    apply readWord_of_erased
    intro k h1 h2
    rw [h k h1, programs_of_disjoint (Or.inl (by omega))]
    exact herased k h1 h2
  | cleared _ he _ => exact Or.inl (readWord_of_erased he)
  | length n hlen h =>
    rcases hread with hread | hread
    · exact Or.inl hread
    have hprog : Erased (programs base (updataAppAddr + 4) image) updataAppAddr 4 :=
      herased.programs (Or.inr le_rfl)
    by_cases hn : n < 4
    · have hlast : m (updataAppAddr + 3) = 0xFF := by
        rw [h _ (by omega), programs_of_disjoint]
        · exact hprog _ (by omega) (by omega)
        · rw [List.length_take]
          omega
      have hlarge := readWord_of_last hlast
      have hend : flashEnd = 0x08100000 := rfl
      unfold stagedLen at hread
      omega
    · rw [List.take_of_length_le (by omega)] at h
      refine Or.inr ⟨?_, hlen, fun k hk => ?_⟩
      · rw [readWord_congr fun k h1 _ => h k h1, readWord_programs, readWord_of_erased hprog]
        exact BitVec.allOnes_and
      · rw [h _ (by omega), programs_of_disjoint (Or.inr (by omega)), programs_of_lt hk]

/-! ## The receiving loop -/

/-- The loop has staged `img`, and what it still takes of `msgs` makes up the image. -/
structure Download (base : Mem) (flen : BitVec 32) (image img : List Byte) (s : State)
    (msgs : List (Option (List Byte))) : Prop where
  fresh : Fresh base img s
  rest : img ++ accepted (setupAppId s.sysSetup) flen s.cmd11.flen msgs = image

theorem Download.remains {img : List Byte} {s : State} {msgs : List (Option (List Byte))}
    (h : Download base flen image img s msgs) : Remains base flen image s.mem :=
  .staging img ⟨_, h.rest⟩ fun k _ => by rw [h.fresh.mem]

/-- The next chunk of the image. -/
theorem Download.chunk {cmd12 : TcmdInfo} {img rev : List Byte} {s : State}
    {msgs : List (Option (List Byte))}
    (h : Download base cmd12.flen image img s (some rev :: msgs)) (hacc : s.Accepts rev) :
    img ++ chunk rev ++ (if s.cmd11.flen + chunkLen rev = cmd12.flen then [] else
      accepted (setupAppId s.sysSetup) cmd12.flen (s.cmd11.flen + chunkLen rev) msgs) = image := by
  have hrest := h.rest
  rw [accepted, if_pos hacc.1, if_pos hacc.2, ← List.append_assoc] at hrest
  exact hrest

/-- A chunk that has been written. -/
theorem fresh_of_write {img rev : List Byte} {s : State} {m : Mem} {e : RtErr}
    (h : Fresh base img s) (hacc : s.Accepts rev)
    (hw : Flash.writeByteToFlash s.mem s.startAddr.toNat (Update.chunk rev) = some (e, m)) :
    Fresh base (img ++ Update.chunk rev) (s.advance rev m) :=
  h.written ⟨hacc.1, hacc.2, ⟨e, hw⟩, rfl, rfl, rfl⟩

/-- The length word behind the whole image. -/
theorem Download.length {cmd12 : TcmdInfo} {img rev : List Byte} {s : State} {m : Mem} {e : RtErr}
    {msgs : List (Option (List Byte))}
    (h : Download base cmd12.flen image img s (some rev :: msgs)) (hacc : s.Accepts rev)
    (hw : Flash.writeByteToFlash s.mem s.startAddr.toNat (Update.chunk rev) = some (e, m))
    (hend : s.cmd11.flen + chunkLen rev = cmd12.flen) :
    image.length = cmd12.flen.toNat ∧ m = programs base (updataAppAddr + 4) image := by
  have hfresh := fresh_of_write h.fresh hacc hw
  have himg := h.chunk hacc
  rw [if_pos hend, List.append_nil] at himg
  subst himg
  refine ⟨?_, hfresh.mem⟩
  rw [← hend]
  exact hfresh.flen.symm

theorem passLeft_remains {cmd12 : TcmdInfo} {img : List Byte} {s t : State}
    {msg : Option (List Byte)} {msgs : List (Option (List Byte))}
    (h : Download base cmd12.flen image img s (msg :: msgs)) (hleft : PassLeft cmd12 s msg t) :
    Remains base cmd12.flen image t.mem := by
  cases hleft with
  | @chunk rev hmsg hacc hpart =>
    subst hmsg
    obtain ⟨n, hn, -, hmem⟩ := hpart
    refine .staging (img ++ (Update.chunk rev).take n) ?_ fun k _ => ?_
    · rw [← h.chunk hacc, List.append_assoc]
      exact (List.prefix_append_right_inj img).2 ((List.take_prefix n _).trans
        (List.prefix_append _ _))
    · rw [hmem, h.fresh.mem, programs_append, h.fresh.startAddr]
  | length hmsg hacc hwrite hend hpart =>
    subst hmsg
    obtain ⟨n, -, -, hmem⟩ := hpart
    obtain ⟨hlen, hm⟩ := h.length hacc hwrite hend
    exact .length n hlen fun k _ => by rw [hmem, hm]

/-- A pass that goes on. -/
theorem Download.again {cmd12 : TcmdInfo} {img : List Byte} {s s' : State}
    {msg : Option (List Byte)} {msgs : List (Option (List Byte))}
    (h : Download base cmd12.flen image img s (msg :: msgs))
    (hpass : s.recvPass cmd12 msg = .again s') :
    ∃ img', Download base cmd12.flen image img' s' msgs := by
  have hspec := recvPass_spec s cmd12 msg
  rw [hpass] at hspec
  cases hspec with
  | skipped hmsg hs =>
    refine ⟨img, h.fresh.skipped hs, ?_⟩
    rw [← h.rest, hs.flen, hs.sysSetup]
    cases msg with
    | none => rfl
    | some rev => rw [accepted, if_pos hmsg.1, if_neg hmsg.2]
  | written hw hne =>
    refine ⟨_, h.fresh.written hw, ?_⟩
    rw [hw.flen] at hne ⊢
    have hchunk := h.chunk ⟨hw.isTcmd11, hw.offset⟩
    rw [if_neg hne] at hchunk
    rw [hw.sysSetup]
    exact hchunk

/-- A pass that ends the loop: nothing is staged, or the whole image with its length. -/
theorem Download.ended {cmd12 : TcmdInfo} {img : List Byte} {s s' : State} {ret : ℤ}
    {msg : Option (List Byte)} {msgs : List (Option (List Byte))}
    (h : Download base cmd12.flen image img s (msg :: msgs))
    (hpass : s.recvPass cmd12 msg = .ended ret s') : Remains base cmd12.flen image s'.mem := by
  have hstate : (s.recvPass cmd12 msg).state = some s' := by
    rw [hpass]
    rfl
  by_cases hacc : ∃ rev, msg = some rev ∧ s.Accepts rev
  · obtain ⟨rev, rfl, hacc⟩ := hacc
    rw [recvPass_chunk cmd12 hacc.1 hacc.2] at hstate
    cases hwrite : Flash.writeByteToFlash s.mem s.startAddr.toNat (Update.chunk rev) with
    | none =>
      rw [hwrite] at hstate
      cases hstate
    | some r =>
      rw [hwrite] at hstate
      have hfresh := fresh_of_write h.fresh hacc hwrite
      obtain ⟨-, hmem | ⟨hend, hmem⟩⟩ := written_state hstate
      · refine .staging (img ++ Update.chunk rev) ⟨_, h.chunk hacc⟩ fun k _ => ?_
        rw [hmem, hfresh.mem]
      · obtain ⟨hlen, hm⟩ := h.length hacc hwrite hend
        refine .length 4 hlen fun k _ => ?_
        rw [hmem]
        show programs r.2 _ _ k = _
        rw [hm]
        rfl
  · push Not at hacc
    obtain ⟨t, ht, -, -, hmem⟩ := recvPass_of_other cmd12 hacc
    obtain rfl := Option.some.inj (ht.symm.trans hstate)
    exact h.remains.congr fun k _ => by rw [hmem]

/-! ## Updates -/

theorem finishLeft_remains {ret : ℤ} {m : Mem} {t : State} (hm : Remains base flen image m)
    (h : FinishLeft ret m t) : Remains base flen image t.mem := by
  cases h with
  | saved _ h => exact hm.congr fun k hk => h k (Or.inr (le_trans (by decide) hk))
  | cleared _ h =>
    rcases h with h | ⟨he, hor⟩
    · exact hm.congr fun k _ => by rw [h]
    · exact .cleared hm he fun k _ => (hor k).imp_right And.right

/-- What is behind the loop: the staging area as it was, or erased. -/
theorem finish_remains {cmd12 : TcmdInfo} {s t : State} {ret ret' : ℤ}
    (hm : Remains base flen image s.mem) (h : s.finish cmd12 ret = .returned ret' t) :
    Remains base flen image t.mem := by
  have hsave : ∀ {m : Mem}, Update.SaveSetup s.mem (setSetupVer s.sysSetup 0) = some m →
      Remains base flen image m :=
    fun hs => hm.congr fun k hk => SaveSetup_staging hs hk
  unfold State.finish at h
  dsimp only at h
  split_ifs at h
  · cases hs : Update.SaveSetup s.mem (setSetupVer s.sysSetup 0) with
    | none =>
      rw [hs] at h
      cases h
    | some m =>
      rw [hs] at h
      cases h
      exact hsave hs
  · cases h
    exact hm
  · cases h
    have he := erased_clearSaveDataSector s.mem
    exact .cleared hm (he.mono le_rfl (by omega)) fun k _ =>
      (someErased_clearSaveDataSector s.mem k).imp_right And.right

theorem loopLeft_remains {cmd12 : TcmdInfo} {img : List Byte} {s t : State}
    {msgs : List (Option (List Byte))} (hs : Download base cmd12.flen image img s msgs)
    (h : LoopLeft cmd12 s msgs t) : Remains base cmd12.flen image t.mem := by
  induction h generalizing img with
  | pass h => exact passLeft_remains hs h
  | later hpass _ ih =>
    obtain ⟨img', hs'⟩ := hs.again hpass
    exact ih hs'
  | finish hpass hfinish => exact finishLeft_remains (hs.ended hpass) hfinish

theorem recvLoop_remains {cmd12 : TcmdInfo} {img : List Byte} {s t : State} {r : Option ℤ}
    {msgs : List (Option (List Byte))} (hs : Download base cmd12.flen image img s msgs)
    (h : callResult (s.recvLoop cmd12 msgs) = some (r, t)) :
    Remains base cmd12.flen image t.mem := by
  induction msgs generalizing s img with
  | nil =>
    cases h
    exact hs.remains
  | cons msg msgs ih =>
    rw [State.recvLoop] at h
    cases hpass : s.recvPass cmd12 msg with
    | again s' =>
      rw [hpass] at h
      obtain ⟨img', hs'⟩ := hs.again hpass
      exact ih hs' h
    | ended ret s' =>
      rw [hpass] at h
      dsimp only at h
      have hm := hs.ended hpass
      rcases finish_cases s' cmd12 ret with hhang | ⟨u, hu, -⟩
      · rw [hhang] at h
        cases h
      · rw [hu] at h
        cases h
        exact finish_remains hm hu
    | hang =>
      rw [hpass] at h
      cases h

/-- The length that the request announces. -/
def announced (rev : List Byte) : BitVec 32 := (TcmdInfo.ofBytes (rev.drop sizeofStPackCmd)).flen

/-- The program that an update from the start puts together. -/
def programOf (d : Update.Device) (rev : List Byte) (msgs : List (Option (List Byte))) :
    List Byte :=
  accepted (setupAppId d.sysSetup) (announced rev) 0 msgs

theorem download_start {d : Update.Device} {rev : List Byte} (send : List Byte)
    (msgs : List (Option (List Byte)))
    (herased : STMFLASH_ReadWord d.mem updataAppAddr = 0xffffffff) :
    Download d.mem (announced rev) (programOf d rev msgs) [] (start d send rev) msgs := by
  have hres := resume_of_erased (TcmdInfo.ofBytes (rev.drop sizeofStPackCmd)) herased
  have hstart : Started d (TcmdInfo.ofBytes (rev.drop sizeofStPackCmd)) (start d send rev) :=
    ⟨rfl, rfl, rfl, rfl⟩
  refine ⟨hstart.fresh hres, ?_⟩
  rw [hstart.flen, hres, hstart.sysSetup]
  rfl

/-- What a run of an update leaves when it ends or the power fails. -/
theorem process_remains {d : Update.Device} {send rev : List Byte}
    {msgs : List (Option (List Byte))} {power : Option ℕ} {t : State}
    (herased : STMFLASH_ReadWord d.mem updataAppAddr = 0xffffffff)
    (h : Leaves (process rev msgs (started d send rev) power) t) :
    Remains d.mem (announced rev) (programOf d rev msgs) t.mem := by
  have hstart : Download d.mem (announced rev) (programOf d rev msgs) [] (start d send rev) msgs :=
    download_start send msgs herased
  have hnone : Remains d.mem (announced rev) (programOf d rev msgs) d.mem :=
    .staging [] List.nil_prefix fun _ _ => rfl
  have hrun := process_refines d send rev msgs power
  rcases h with h | ⟨r, power', h⟩
  · rw [h] at hrun
    cases hrun.1 with
    | cleared hc => exact finishLeft_remains hnone (FinishLeft.cleared (by decide : (0 : ℤ) ≠ 1) hc)
    | loop _ hl => exact loopLeft_remains hstart hl
  · rw [h] at hrun
    by_cases hreq : AcceptsRequest rev
    · rw [process_eq_recvLoop hreq] at hrun
      exact recvLoop_remains hstart hrun.1
    · unfold process_DEV_USER_RUPDATA at hrun
      dsimp only at hrun
      rw [if_pos (Decidable.not_not.1 hreq)] at hrun
      cases hrun.1
      exact .cleared hnone ((erased_clearSaveDataSector d.mem).mono le_rfl (by omega))
        fun k _ => (someErased_clearSaveDataSector d.mem k).imp_right And.right

/-! ## The boots after it -/

/-- A staged image that a boot takes over. -/
theorem checkFlashFile_length {m : Mem} (h : Boot.checkFlashFile m = 0) :
    STMFLASH_ReadWord m updataAppAddr ≠ 0xffffffff ∧
      crc32 0xffffffff (read m (updataAppAddr + 4) (stagedLen m)) = 0 := by
  unfold Boot.checkFlashFile at h
  dsimp only at h
  split_ifs at h with hlen hcrc
  exact ⟨hlen.2, by rw [← calcFlashCrc_eq]; exact hcrc⟩

/-- A boot takes over nothing but the whole image, with the right checksum. -/
theorem Remains.checked {m : Mem} (h : Remains base flen image m)
    (hbase : STMFLASH_ReadWord base updataAppAddr = 0xffffffff) (hprog : Programmable image base)
    (hread : ReadsFlash m) (hcheck : Boot.checkFlashFile m = 0) :
    image.length = flen.toNat ∧ crc32 0xffffffff image = 0 ∧ stagedLen m = image.length ∧
      ∀ k (hk : k < image.length), m (updataAppAddr + 4 + k) = image[k] := by
  obtain ⟨hne, hcrc⟩ := checkFlashFile_length hcheck
  obtain ⟨hword, hsize, hbytes⟩ := (h.whole hbase hread).resolve_left hne
  have hstaged : stagedLen m = image.length := by rw [stagedLen, hword, hsize]
  have hsame : ∀ k (hk : k < image.length), m (updataAppAddr + 4 + k) = image[k] :=
    fun k hk => (hbytes k hk).trans (hprog k hk)
  rw [hstaged, read_eq_iff.2 hsame] at hcrc
  exact ⟨hsize, hcrc, hstaged, hsame⟩

/-- The application is the whole program that was sent, with the right checksum. -/
def Installed (d : Update.Device) (rev : List Byte) (msgs : List (Option (List Byte)))
    (m : Mem) : Prop :=
  (programOf d rev msgs).length = (announced rev).toNat ∧
    crc32 0xffffffff (programOf d rev msgs) = 0 ∧
    ∀ k (hk : k < (programOf d rev msgs).length),
      m (applicationAddress + k) = (programOf d rev msgs)[k]

/-- The power fails at any operation of an update, or the update ends, and then any number
    of boots are cut. If the length that the first boot finds lies in the flash, every boot
    comes to an end, and the application then is as it was before the update, or it is the
    whole program that was sent. -/
theorem update_atomic {d : Update.Device} {send rev : List Byte}
    {msgs : List (Option (List Byte))} {power : Option ℕ} {t : State} {m : Mem}
    (herased : STMFLASH_ReadWord d.mem updataAppAddr = 0xffffffff)
    (hprog : Programmable (programOf d rev msgs) d.mem) (hfits : (announced rev).toNat ≤ appSize)
    (hleft : Leaves (process rev msgs (started d send rev) power) t)
    (hread : ReadsFlash t.mem) (hcuts : CutRuns main t.mem m) :
    (∃ m', main m none = .done () m' none) ∧
      ∀ power m' power', main m power = .done () m' power' →
        AppUnchanged d.mem m' ∨ Installed d rev msgs m' := by
  have hremains := process_remains herased hleft
  have hkept := (process_kept (Or.inl herased) hleft).appUnchanged
  have hlen : stagedLen t.mem ≤ appSize ∨ STMFLASH_ReadWord t.mem updataAppAddr = 0xffffffff := by
    rcases hremains.whole herased hread with hw | ⟨hw, -, -⟩
    · exact Or.inr hw
    · exact Or.inl (by rw [stagedLen, hw]; exact hfits)
  obtain ⟨hends, -, hboots⟩ := boot_recovers hlen hcuts
  refine ⟨hends, fun power m' power' hdone => ?_⟩
  obtain ⟨hgood, hbad⟩ := hboots power m' power' hdone
  by_cases hcheck : Boot.checkFlashFile t.mem = 0
  · right
    obtain ⟨hsize, hcrc, hstaged, hsame⟩ := hremains.checked herased hprog hread hcheck
    refine ⟨hsize, hcrc, fun k hk => ?_⟩
    rw [hgood hcheck k (by omega), hsame k hk]
  · left
    intro k hk
    rw [hbad hcheck k hk, hkept k hk]

/-- The length word that a power failure leaves, `none` for a run that ends. -/
def cutLength {α : Type} : Outcome State α → Option (BitVec 32)
  | .cut t => some (STMFLASH_ReadWord t.mem updataAppAddr)
  | _ => none

theorem cut_of_cutLength {α : Type} {o : Outcome State α} {w : BitVec 32}
    (h : cutLength o = some w) : ∃ t, o = .cut t ∧ STMFLASH_ReadWord t.mem updataAppAddr = w := by
  cases o with
  | cut t => exact ⟨t, rfl, Option.some.inj h⟩
  | done a t power => cases h
  | hang => cases h

/-- An update over an erased area with a program of four bytes, cut before the third one. -/
theorem update_atomic_four :
    let d := exampleDevice fun _ => 0xFF
    let msgs := [some (exampleMessage 0 [0xFF, 0xFF, 0xFF, 0xFF])]
    ∃ t, process (exampleRequest 4) msgs (started d (List.replicate 1024 0) (exampleRequest 4))
        (some 2) = .cut t ∧
      ∃ m', main t.mem none = .done () m' none := by
  obtain ⟨t, hrun, hword⟩ := cut_of_cutLength (show cutLength (process (exampleRequest 4)
    [some (exampleMessage 0 [0xFF, 0xFF, 0xFF, 0xFF])] (started (exampleDevice fun _ => 0xFF)
      (List.replicate 1024 0) (exampleRequest 4)) (some 2)) = some 0xffffffff by decide +kernel)
  refine ⟨t, hrun, (update_atomic (d := exampleDevice fun _ => 0xFF)
    (readWord_of_erased fun _ _ _ => rfl) (fun k _ => and_erased _) ?_ (Or.inl hrun)
    (Or.inl hword) (.none _)).1⟩
  decide +kernel

/-! ## A successful update -/

/-- The loop ends with 1 only behind the last chunk and a good check. -/
theorem ended_one {cmd12 : TcmdInfo} {s s' : State} {msg : Option (List Byte)}
    (h : s.recvPass cmd12 msg = .ended 1 s') :
    ∃ rev r, msg = some rev ∧ s.Accepts rev ∧
      Flash.writeByteToFlash s.mem s.startAddr.toNat (Update.chunk rev) = some r ∧
      s.cmd11.flen + chunkLen rev = cmd12.flen ∧ Update.checkFlashFile s'.mem = .rtEok := by
  have htimeout : ∀ u : State, u.timeout ≠ .ended 1 s' := by
    intro u hu
    unfold State.timeout at hu
    dsimp only at hu
    split_ifs at hu
    cases hu
  cases msg with
  | none => exact absurd h (htimeout s)
  | some rev =>
    by_cases h11 : IsTcmd11 (setupAppId s.sysSetup) rev
    · by_cases hoff : u32At rev 8 = s.cmd11.flen
      · rw [recvPass_chunk cmd12 h11 hoff] at h
        cases hw : Flash.writeByteToFlash s.mem s.startAddr.toNat (Update.chunk rev) with
        | none =>
          rw [hw] at h
          cases h
        | some r =>
          rw [hw] at h
          dsimp only at h
          by_cases hend : (s.advance rev r.2).cmd11.flen = cmd12.flen
          · rw [written_of_eq hend] at h
            dsimp only at h
            split_ifs at h with hcheck
            · cases h
              exact ⟨rev, r, rfl, ⟨h11, hoff⟩, hw, hend, hcheck⟩
            · cases h
          · rw [written_of_ne hend] at h
            cases h
      · rw [recvPass_mismatch cmd12 h11 hoff] at h
        exact absurd h (htimeout _)
    · rw [recvPass_other cmd12 h11] at h
      cases h

theorem checkFlashFile_congr {m m' : Mem} (h : ∀ k, updataAppAddr ≤ k → m' k = m k) :
    Update.checkFlashFile m' = Update.checkFlashFile m := by
  unfold Update.checkFlashFile
  rw [readWord_congr fun k h1 _ => h k h1]
  dsimp only
  rw [calcFlashCrc_congr fun k h1 _ => h k (by omega)]

theorem checked_of_returned {cmd12 : TcmdInfo} {s t : State} {msgs : List (Option (List Byte))}
    (h : s.recvLoop cmd12 msgs = .returned 1 t) : Update.checkFlashFile t.mem = .rtEok := by
  induction msgs generalizing s with
  | nil => cases h
  | cons msg msgs ih =>
    rw [State.recvLoop] at h
    cases hpass : s.recvPass cmd12 msg with
    | again s' =>
      rw [hpass] at h
      exact ih h
    | ended ret s' =>
      rw [hpass] at h
      obtain ⟨rfl, hfin⟩ := finish_returned h
      rw [checkFlashFile_congr (hfin.mem_one rfl)]
      obtain ⟨-, -, -, -, -, -, hcheck⟩ := ended_one hpass
      exact hcheck
    | hang =>
      rw [hpass] at h
      cases h

theorem bootCheck_of_checked {m : Mem} (h : Update.checkFlashFile m = .rtEok) :
    Boot.checkFlashFile m = 0 := by
  unfold Update.checkFlashFile at h
  dsimp only at h
  split_ifs at h with hlen hcrc
  unfold Boot.checkFlashFile
  dsimp only
  rw [if_pos hlen, if_pos hcrc]

/-- After an update that returns 1, any number of boots may be cut: the next one that comes to
    its end starts the program that was sent. -/
theorem update_installs {d : Update.Device} {send rev : List Byte}
    {msgs : List (Option (List Byte))} {t : State} {m : Mem}
    (herased : STMFLASH_ReadWord d.mem updataAppAddr = 0xffffffff)
    (hprog : Programmable (programOf d rev msgs) d.mem) (hfits : (announced rev).toNat ≤ appSize)
    (h : process_DEV_USER_RUPDATA d send rev msgs = .returned 1 t) (hcuts : CutRuns main t.mem m) :
    (∃ m', main m none = .done () m' none) ∧
      ∀ power m' power', main m power = .done () m' power' → Installed d rev msgs m' := by
  have hrun := (process_refines d send rev msgs none).done (a := some 1) (t := t) (by rw [h]; rfl)
  have hremains := process_remains herased (Or.inr ⟨_, _, hrun⟩)
  have hword : STMFLASH_ReadWord t.mem updataAppAddr = announced rev := by
    obtain ⟨s, hs, hloop⟩ := process_returned h
    have hres := resume_of_erased (TcmdInfo.ofBytes (rev.drop sizeofStPackCmd)) herased
    obtain ⟨-, -, hmem⟩ := recvLoop_fresh (hs.fresh hres) hloop
    rw [readWord_congr fun k h1 _ => hmem k h1, readWord_programs,
      readWord_congr fun k _ h2 => programs_of_disjoint (Or.inl h2), herased]
    exact BitVec.allOnes_and
  have hchecked : Update.checkFlashFile t.mem = .rtEok := by
    obtain ⟨s, -, hloop⟩ := process_returned h
    exact checked_of_returned hloop
  have hlen : stagedLen t.mem ≤ appSize := by rw [stagedLen, hword]; exact hfits
  have hread : ReadsFlash t.mem := by
    have hbase : updataAppAddr = 0x080A0000 := rfl
    have hsize : appSize = 0x58000 := rfl
    exact Or.inr (le_trans (by omega) (show 0x08100000 ≤ flashEnd from le_rfl))
  obtain ⟨hsize, hcrc, hstaged, hsame⟩ :=
    hremains.checked herased hprog hread (bootCheck_of_checked hchecked)
  obtain ⟨hends, -, hboots⟩ := boot_recovers (Or.inl hlen) hcuts
  refine ⟨hends, fun power m' power' hdone => ⟨hsize, hcrc, fun k hk => ?_⟩⟩
  rw [(hboots power m' power' hdone).1 (bootCheck_of_checked hchecked) k (by omega), hsame k hk]

end Abox.Device
