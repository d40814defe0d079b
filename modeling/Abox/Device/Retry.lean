import Abox.Device.Window

/-!
# The second try

An update that a power failure has ended leaves bytes of its program in the staging area,
below an erased length. The next update does not erase them.

* `retry_installs`: the same program can be sent again, and is installed then.
-/

namespace Abox.Device

open Nor PowerCut Flash Update Boot

/-! ## What boots do to the staging area -/

/-- Bytes of the staging area may have been erased, those of the length all at once; in front
    of the application nothing has changed. -/
structure Wiped (m0 m : Mem) : Prop where
  front : ∀ k, k < applicationAddress → m k = m0 k
  bytes : ∀ k, updataAppAddr ≤ k → m k = m0 k ∨ m k = 0xFF
  length : STMFLASH_ReadWord m updataAppAddr = STMFLASH_ReadWord m0 updataAppAddr ∨
    STMFLASH_ReadWord m updataAppAddr = 0xffffffff

theorem Wiped.refl (m : Mem) : Wiped m m :=
  ⟨fun _ _ => rfl, fun _ _ => Or.inl rfl, Or.inl rfl⟩

variable {m0 : Mem}

/-- The erase of a sector. -/
theorem Wiped.erase {m : Mem} {a n : ℕ} (h : Wiped m0 m) (hfront : applicationAddress ≤ a)
    (ha : a + n ≤ updataAppAddr ∨ (a ≤ updataAppAddr ∧ updataAppAddr + 4 ≤ a + n) ∨
      updataAppAddr + 4 ≤ a) : Wiped m0 (erase m a n) := by
  refine ⟨fun k hk => ?_, fun k hk => ?_, ?_⟩
  · rw [erase_of_disjoint (by omega)]
    exact h.front k hk
  · by_cases hin : a ≤ k ∧ k < a + n
    · exact Or.inr (erase_of_mem hin)
    · rw [erase_of_disjoint (by omega)]
      exact h.bytes k hk
  · rcases ha with ha | ⟨ha, ha'⟩ | ha
    · rw [readWord_congr (m := m) fun k h1 _ => erase_of_disjoint (Or.inr (by omega))]
      exact h.length
    · exact Or.inr (readWord_of_erased ((erased_erase m a n).mono ha ha'))
    · rw [readWord_congr (m := m) fun k _ h2 => erase_of_disjoint (Or.inl (by omega))]
      exact h.length

/-- Programming between the sectors of the bootloader and the staging area. -/
theorem Wiped.programs {m : Mem} {a : ℕ} {bs : List Byte} (h : Wiped m0 m)
    (hfront : applicationAddress ≤ a) (ha : a + bs.length ≤ updataAppAddr) :
    Wiped m0 (programs m a bs) := by
  refine ⟨fun k hk => ?_, fun k hk => ?_, ?_⟩
  · rw [programs_of_disjoint (Or.inl (by omega))]
    exact h.front k hk
  · rw [programs_of_disjoint (Or.inr (by omega))]
    exact h.bytes k hk
  · rw [readWord_congr (m := m) fun k h1 _ => programs_of_disjoint (Or.inr (by omega))]
    exact h.length

theorem eraseSector_keeps {sector : ℕ} (h0 : 2 ≤ sector) (h : sector < 12) :
    Keeps (Wiped m0) (Boot.FLASH_EraseSector sector) := by
  refine Keeps.op fun m hm => ?_
  unfold Flash.FLASH_EraseSector
  dsimp only
  apply hm.erase
  all_goals interval_cases sector <;> decide

theorem bootClear_keeps : Keeps (Wiped m0) Boot.clearSaveDataSector := by
  show Keeps _ (do
    Boot.FLASH_EraseSector 9
    Boot.FLASH_EraseSector 10
    Boot.FLASH_EraseSector 11
    pure ())
  exact (eraseSector_keeps (by decide) (by decide)).bind fun _ =>
    (eraseSector_keeps (by decide) (by decide)).bind fun _ =>
    (eraseSector_keeps (by decide) (by decide)).bind fun _ => Keeps.pure ()

theorem clearApp_keeps : Keeps (Wiped m0) clearAppDataSector := by
  show Keeps _ (do
    Boot.FLASH_EraseSector 2
    Boot.FLASH_EraseSector 3
    Boot.FLASH_EraseSector 4
    Boot.FLASH_EraseSector 5
    Boot.FLASH_EraseSector 6
    pure ())
  exact (eraseSector_keeps (by decide) (by decide)).bind fun _ =>
    (eraseSector_keeps (by decide) (by decide)).bind fun _ =>
    (eraseSector_keeps (by decide) (by decide)).bind fun _ =>
    (eraseSector_keeps (by decide) (by decide)).bind fun _ =>
    (eraseSector_keeps (by decide) (by decide)).bind fun _ => Keeps.pure ()

theorem bootWrite_keeps {writeAddr : ℕ} {ws : List (BitVec 32)}
    (h0 : applicationAddress ≤ writeAddr) (h : writeAddr + 4 * ws.length ≤ updataAppAddr) :
    Keeps (Wiped m0) (STMFLASH_Write writeAddr ws) := by
  induction ws generalizing writeAddr with
  | nil => exact Keeps.pure ()
  | cons w ws ih =>
    rw [List.length_cons] at h
    refine ((Keeps.assert _).bind fun _ => Keeps.op fun m hm => ?_).bind fun _ =>
      ih (by omega) (by omega)
    have hfour : (Layout.word.encode w).length = 4 := Layout.word.length_encode w
    exact hm.programs h0 (by omega)

theorem bootBytes_keeps {writeAddr : ℕ} {bs : List Byte}
    (h0 : applicationAddress ≤ writeAddr) (h : writeAddr + bs.length ≤ updataAppAddr) :
    Keeps (Wiped m0) (Boot.programBytes writeAddr bs) := by
  induction bs generalizing writeAddr with
  | nil => exact Keeps.pure ()
  | cons b bs ih =>
    rw [List.length_cons] at h
    refine ((Keeps.assert _).bind fun _ => Keeps.op fun m hm => ?_).bind fun _ =>
      ih (by omega) (by omega)
    have hlen : writeAddr + [b].length ≤ updataAppAddr := by
      simp only [List.length_cons, List.length_nil]
      omega
    exact hm.programs h0 hlen

/-- Copying an image that ends in front of the staging area. -/
theorem copyApp_keeps {readAddr writeAddr fileLen : ℕ} (h0 : applicationAddress ≤ writeAddr)
    (h : writeAddr + fileLen ≤ updataAppAddr) :
    Keeps (Wiped m0) (copyApp readAddr writeAddr fileLen) := by
  induction fileLen using Nat.strong_induction_on generalizing readAddr writeAddr with
  | _ n ih =>
    rw [copyApp]
    have hbuf : 4 * (bufSize / 4) = bufSize := bufSize_eq
    have hpos := bufSize_pos
    by_cases hn : bufSize < n
    · rw [if_pos hn]
      refine Keeps.get_bind fun m _ => (bootWrite_keeps h0 ?_).bind fun _ =>
        ih _ (by omega) (by omega) (by omega)
      rw [List.length_map, List.length_range]
      omega
    · rw [if_neg hn]
      refine Keeps.get_bind fun m _ => Keeps.bind ?_ fun _ => bootClear_keeps
      refine Keeps.ite (Keeps.pure ()) (bootBytes_keeps h0 ?_)
      rw [length_read]
      exact h

/-- A boot wipes the staging area at most, if the staged length is one of an application. -/
theorem main_keeps (hlen : stagedLen m0 ≤ appSize ∨
    STMFLASH_ReadWord m0 updataAppAddr = 0xffffffff) : Keeps (Wiped m0) main := by
  have happ : applicationAddress + appSize ≤ updataAppAddr := by decide
  refine Keeps.get_bind fun m hm => ?_
  by_cases hcond : STMFLASH_ReadWord m updataAppAddr ≠ 0 ∧
      STMFLASH_ReadWord m updataAppAddr ≠ 0xffffffff
  · rw [if_pos hcond]
    have hword := hm.length.resolve_right hcond.2
    have hsize : (STMFLASH_ReadWord m updataAppAddr).toNat ≤ appSize := by
      rw [hword] at hcond ⊢
      exact hlen.resolve_right hcond.2
    refine Keeps.get_bind fun m' _ => Keeps.ite bootClear_keeps ?_
    exact clearApp_keeps.bind fun _ => copyApp_keeps le_rfl (by omega)
  · rw [if_neg hcond]
    exact Keeps.pure ()

/-! ## The end of a boot -/

theorem bootClear_done {m m1 : Mem} {power power' : Option ℕ}
    (h : Boot.clearSaveDataSector m power = .done () m1 power') : HeaderErased m1 := by
  have htriple := clearSaveDataSector_triple (A := fun _ => True) (S := fun _ => True)
    fun _ _ _ _ _ => trivial
  exact (htriple.done (s := m) ⟨trivial, trivial⟩ h).2

theorem copyApp_done {readAddr writeAddr fileLen : ℕ} {m m1 : Mem} {power power' : Option ℕ}
    (h : copyApp readAddr writeAddr fileLen m power = .done () m1 power') : HeaderErased m1 := by
  induction fileLen using Nat.strong_induction_on generalizing readAddr writeAddr m power with
  | _ n ih =>
    rw [copyApp] at h
    have hpos := bufSize_pos
    by_cases hn : bufSize < n
    · rw [if_pos hn] at h
      obtain ⟨_, _, _, -, h⟩ := Prog.bind_done h
      obtain ⟨_, _, _, -, h⟩ := Prog.bind_done h
      exact ih _ (by omega) h
    · rw [if_neg hn] at h
      obtain ⟨_, _, _, -, h⟩ := Prog.bind_done h
      obtain ⟨_, _, _, -, h⟩ := Prog.bind_done h
      exact bootClear_done h

/-- A boot that comes to its end leaves no length, unless it was zero. -/
theorem main_done {m m1 : Mem} {power power' : Option ℕ}
    (hzero : STMFLASH_ReadWord m updataAppAddr ≠ 0)
    (h : main m power = .done () m1 power') : STMFLASH_ReadWord m1 updataAppAddr = 0xffffffff := by
  unfold main at h
  rw [Prog.get_bind] at h
  by_cases hcond : STMFLASH_ReadWord m updataAppAddr ≠ 0 ∧
      STMFLASH_ReadWord m updataAppAddr ≠ 0xffffffff
  · rw [if_pos hcond, Prog.get_bind] at h
    apply readWord_of_erased
    split_ifs at h
    · exact bootClear_done h
    · obtain ⟨_, _, _, -, h⟩ := Prog.bind_done h
      exact copyApp_done h
  · rw [if_neg hcond] at h
    cases h
    exact Decidable.of_not_not fun hne => hcond ⟨hzero, hne⟩

/-! ## The second update -/

/-- A program may be sent again after a power failure anywhere outside the window of the
    length, however often the boots behind it were cut: the second update starts from an
    erased length, and once it succeeds, the program is installed. -/
theorem retry_installs {d d' : Update.Device} {send send' rev rev' image : List Byte}
    {msgs msgs' : List (Option (List Byte))} {power power' power'' : Option ℕ} {t t' : State}
    {m m' : Mem} (herased : STMFLASH_ReadWord d.mem updataAppAddr = 0xffffffff)
    (hprog : Programmable image d.mem) (hfirst : programOf d rev msgs <+: image)
    (hne : announced rev ≠ 0) (hfits : (announced rev).toNat ≤ appSize)
    (hleft : Leaves (process rev msgs (started d send rev) power) t) (hread : ReadsFlash t.mem)
    (hcuts : CutRuns main t.mem m) (hboot : main m power' = .done () d'.mem power'')
    (hagain : programOf d' rev' msgs' = image) (hfits' : (announced rev').toNat ≤ appSize)
    (h' : process_DEV_USER_RUPDATA d' send' rev' msgs' = .returned 1 t')
    (hcuts' : CutRuns main t'.mem m') :
    STMFLASH_ReadWord d'.mem updataAppAddr = 0xffffffff ∧
      (∃ m2, main m' none = .done () m2 none) ∧
      ∀ power m2 power', main m' power = .done () m2 power' → Installed d' rev' msgs' m2 := by
  have hremains := process_remains herased hleft
  have hlen : stagedLen t.mem ≤ appSize ∨ STMFLASH_ReadWord t.mem updataAppAddr = 0xffffffff := by
    rcases hremains.whole herased hread with hw | ⟨hw, -, -⟩
    · exact Or.inr hw
    · exact Or.inl (by rw [stagedLen, hw]; exact hfits)
  have hzero : STMFLASH_ReadWord t.mem updataAppAddr ≠ 0 := by
    rcases hremains.whole herased hread with hw | ⟨hw, -, -⟩
    · rw [hw]
      decide
    · rw [hw]
      exact hne
  have hkeeps := main_keeps hlen
  have hm : Wiped t.mem m := hkeeps.cutRuns (Wiped.refl _) hcuts
  have hd' : Wiped t.mem d'.mem := hkeeps.done hm hboot
  have herased' : STMFLASH_ReadWord d'.mem updataAppAddr = 0xffffffff := by
    refine main_done (fun hz => ?_) hboot
    rcases hm.length with hw | hw
    · exact hzero (hw.symm.trans hz)
    · rw [hw] at hz
      cases hz
  have hprog' : Programmable image d'.mem := by
    intro k hk
    rcases hd'.bytes (updataAppAddr + 4 + k) (by omega) with hsame | hff
    · rw [hsame]
      exact hremains.programmable hfirst hprog k hk
    · rw [hff]
      exact and_erased _
  subst hagain
  exact ⟨herased', update_installs herased' hprog' hfits' h' hcuts'⟩

/-- An update of four bytes that is cut before the third one, a boot, and the update again:
    what the second update reports. -/
def secondReport : Option (ℤ × BitVec 32) :=
  match process (exampleRequest 4) [some (exampleMessage 0 [0xFF, 0xFF, 0xFF, 0xFF])]
      (started (exampleDevice fun _ => 0xFF) (List.replicate 1024 0) (exampleRequest 4))
      (some 2) with
  | .cut t =>
    match main t.mem none with
    | .done () m _ => Result.report (process_DEV_USER_RUPDATA (exampleDevice m)
        (List.replicate 1024 0) (exampleRequest 4)
        [some (exampleMessage 0 [0xFF, 0xFF, 0xFF, 0xFF])])
    | _ => none
  | _ => none

theorem retry_installs_four :
    ∃ d' t', process_DEV_USER_RUPDATA d' (List.replicate 1024 0) (exampleRequest 4)
        [some (exampleMessage 0 [0xFF, 0xFF, 0xFF, 0xFF])] = .returned 1 t' ∧
      ∃ m', main t'.mem none = .done () m' none ∧ Installed d' (exampleRequest 4)
        [some (exampleMessage 0 [0xFF, 0xFF, 0xFF, 0xFF])] m' := by
  have hreport : secondReport = some (1, 4) := by decide +kernel
  unfold secondReport at hreport
  cases hfirst : process (exampleRequest 4) [some (exampleMessage 0 [0xFF, 0xFF, 0xFF, 0xFF])]
      (started (exampleDevice fun _ => 0xFF) (List.replicate 1024 0) (exampleRequest 4))
      (some 2) with
  | done a t p =>
    rw [hfirst] at hreport
    cases hreport
  | hang =>
    rw [hfirst] at hreport
    cases hreport
  | cut t =>
    rw [hfirst] at hreport
    dsimp only at hreport
    cases hboot : main t.mem none with
    | cut m =>
      rw [hboot] at hreport
      cases hreport
    | hang =>
      rw [hboot] at hreport
      cases hreport
    | done a m p =>
      rw [hboot] at hreport
      obtain ⟨t', hrun, -⟩ := Result.eq_of_report hreport
      have hword : STMFLASH_ReadWord t.mem updataAppAddr = 0xffffffff := by
        obtain ⟨u, hcut, hu⟩ := cut_of_cutLength (show cutLength (process (exampleRequest 4)
          [some (exampleMessage 0 [0xFF, 0xFF, 0xFF, 0xFF])] (started (exampleDevice fun _ => 0xFF)
            (List.replicate 1024 0) (exampleRequest 4)) (some 2)) = some 0xffffffff
          by decide +kernel)
        rw [hfirst] at hcut
        cases hcut
        exact hu
      have himage : programOf (exampleDevice m) (exampleRequest 4)
          [some (exampleMessage 0 [0xFF, 0xFF, 0xFF, 0xFF])] = [0xFF, 0xFF, 0xFF, 0xFF] := by
        show programOf (exampleDevice fun _ => 0xFF) _ _ = _
        decide +kernel
      have herased : STMFLASH_ReadWord (exampleDevice fun _ => 0xFF).mem updataAppAddr =
          0xffffffff := readWord_of_erased fun _ _ _ => rfl
      have hfirstProgram : programOf (exampleDevice fun _ => 0xFF) (exampleRequest 4)
          [some (exampleMessage 0 [0xFF, 0xFF, 0xFF, 0xFF])] <+: [0xFF, 0xFF, 0xFF, 0xFF] := by
        decide +kernel
      have hinstalls := retry_installs herased
        (fun k _ => and_erased _) hfirstProgram (by decide +kernel) (by decide +kernel)
        (Or.inl hfirst) (Or.inl hword) (.none _) hboot himage (by decide +kernel) hrun (.none _)
      obtain ⟨-, ⟨m', hm'⟩, hall⟩ := hinstalls
      exact ⟨_, t', hrun, m', hm', hall none m' none hm'⟩

end Abox.Device
