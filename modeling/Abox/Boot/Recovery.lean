import Abox.Boot.Main

/-!
# Power cuts in the bootloader

The power can fail before any operation of `main` on the flash, in any number
of boots.

* `main_good`, `main_bad`: what one boot does, and what a cut leaves, with a
  good and with a bad staged image.
* `boot_recovers`: the first boot that reaches `IAP_BOOT` does so with the whole
  image copied if it was good, and with the application unchanged if not.
-/

namespace Abox.Boot

open Nor PowerCut Flash

section

-- the contents of the flash before the first boot
variable (m0 : Mem)

/-- The staged length. -/
def stagedLen : ℕ := (STMFLASH_ReadWord m0 updataAppAddr).toNat

/-- The staged length and image are as at first. -/
def Staged (m : Mem) : Prop :=
  ∀ k, updataAppAddr ≤ k → k < updataAppAddr + 4 + stagedLen m0 → m k = m0 k

/-- The first `n` bytes of the staged image are in the application area. -/
def Copied (n : ℕ) (m : Mem) : Prop :=
  ∀ k < n, m (applicationAddress + k) = m0 (updataAppAddr + 4 + k)

/-- The application area is as at first. -/
def AppUnchanged (m : Mem) : Prop :=
  ∀ k < appSize, m (applicationAddress + k) = m0 (applicationAddress + k)

end

/-- The staged length is erased. -/
def HeaderErased (m : Mem) : Prop := Erased m updataAppAddr 4

variable {m0 : Mem}

theorem Staged.readWord {m : Mem} (h : Staged m0 m) :
    STMFLASH_ReadWord m updataAppAddr = STMFLASH_ReadWord m0 updataAppAddr :=
  readWord_congr fun k h1 h2 => h k h1 (by omega)

theorem Staged.checkFlashFile {m : Mem} (h : Staged m0 m) :
    checkFlashFile m = checkFlashFile m0 := by
  have hcrc : calcFlashCrc m (updataAppAddr + 4) (STMFLASH_ReadWord m0 updataAppAddr).toNat =
      calcFlashCrc m0 (updataAppAddr + 4) (STMFLASH_ReadWord m0 updataAppAddr).toNat :=
    calcFlashCrc_congr fun k h1 h2 => h k (by omega) h2
  simp only [Boot.checkFlashFile, h.readWord, hcrc]

/-- Programming in the application area leaves the staged image alone. -/
theorem Staged.programs {m : Mem} {a : ℕ} {bs : List Byte} (h : Staged m0 m)
    (ha : a + bs.length ≤ updataAppAddr) : Staged m0 (programs m a bs) := by
  intro k h1 h2
  rw [programs_of_disjoint (by omega)]
  exact h k h1 h2

theorem Staged.erase {m : Mem} {a n : ℕ} (h : Staged m0 m) (ha : a + n ≤ updataAppAddr) :
    Staged m0 (erase m a n) := by
  intro k h1 h2
  rw [erase_of_disjoint (by omega)]
  exact h k h1 h2

theorem Copied.erase {m : Mem} {a n len : ℕ} (h : Copied m0 len m) (hlen : len ≤ appSize)
    (ha : updataAppAddr ≤ a) : Copied m0 len (erase m a n) := by
  intro k hk
  rw [erase_of_disjoint]
  · exact h k hk
  · left
    unfold updataAppAddr applicationAddress appSize at *
    omega

theorem AppUnchanged.erase {m : Mem} {a n : ℕ} (h : AppUnchanged m0 m)
    (ha : updataAppAddr ≤ a) : AppUnchanged m0 (Nor.erase m a n) := by
  intro k hk
  rw [erase_of_disjoint]
  · exact h k hk
  · left
    unfold updataAppAddr applicationAddress appSize at *
    omega

/-! ## Erasing the sectors -/

/-- Erasing the staging sectors keeps what does not depend on them, and erases
    the length first. -/
theorem clearSaveDataSector_triple {A S : Mem → Prop}
    (hA : ∀ m a n, updataAppAddr ≤ a → A m → A (erase m a n)) :
    Triple (fun m => A m ∧ S m) clearSaveDataSector (fun _ m => A m ∧ HeaderErased m)
      (fun m => A m ∧ (S m ∨ HeaderErased m)) := by
  show Triple _ (do FLASH_EraseSector 9; FLASH_EraseSector 10; FLASH_EraseSector 11; pure ()) _ _
  apply Triple.bind (Q := fun _ m => A m ∧ HeaderErased m)
  · apply Triple.op
    · rintro m ⟨ha, -⟩
      exact ⟨hA m _ _ le_rfl ha, (erased_erase m updataAppAddr 0x20000).mono le_rfl (by decide)⟩
    · rintro m ⟨ha, hs⟩
      exact ⟨ha, Or.inl hs⟩
  intro _
  apply Triple.bind (Q := fun _ m => A m ∧ HeaderErased m)
  · apply Triple.op
    · rintro m ⟨ha, hh⟩
      exact ⟨hA m _ _ (by decide) ha, Erased.erase hh _ _⟩
    · rintro m ⟨ha, hh⟩
      exact ⟨ha, Or.inr hh⟩
  intro _
  apply Triple.bind (Q := fun _ m => A m ∧ HeaderErased m)
  · apply Triple.op
    · rintro m ⟨ha, hh⟩
      exact ⟨hA m _ _ (by decide) ha, Erased.erase hh _ _⟩
    · rintro m ⟨ha, hh⟩
      exact ⟨ha, Or.inr hh⟩
  intro _
  exact Triple.pure fun m hm => hm

/-- One erase of the application, from `applicationAddress + n` on. -/
theorem eraseApp_triple (m0 : Mem) (sector n k : ℕ)
    (hsector : ∀ m, Flash.FLASH_EraseSector m sector = erase m (applicationAddress + n) k)
    (hk : applicationAddress + n + k ≤ updataAppAddr) :
    Triple (fun m => Staged m0 m ∧ Erased m applicationAddress n) (FLASH_EraseSector sector)
      (fun _ m => Staged m0 m ∧ Erased m applicationAddress (n + k)) (Staged m0) := by
  apply Triple.op
  · rintro m ⟨hs, he⟩
    show Staged m0 (Flash.FLASH_EraseSector m sector) ∧
      Erased (Flash.FLASH_EraseSector m sector) applicationAddress (n + k)
    rw [hsector m]
    exact ⟨hs.erase hk, he.extend k⟩
  · rintro m ⟨hs, -⟩
    exact hs

theorem clearAppDataSector_triple : Triple (Staged m0) clearAppDataSector
    (fun _ m => Staged m0 m ∧ Erased m applicationAddress appSize) (Staged m0) := by
  show Triple _ (do
    FLASH_EraseSector 2
    FLASH_EraseSector 3
    FLASH_EraseSector 4
    FLASH_EraseSector 5
    FLASH_EraseSector 6
    pure ()) _ _
  have h2 := eraseApp_triple m0 2 0 0x4000 (fun _ => rfl) (by decide)
  have h3 := eraseApp_triple m0 3 0x4000 0x4000 (fun _ => rfl) (by decide)
  have h4 := eraseApp_triple m0 4 0x8000 0x10000 (fun _ => rfl) (by decide)
  have h5 := eraseApp_triple m0 5 0x18000 0x20000 (fun _ => rfl) (by decide)
  have h6 := eraseApp_triple m0 6 0x38000 0x20000 (fun _ => rfl) (by decide)
  have hstart : Triple (Staged m0) (FLASH_EraseSector 2) _ _ :=
    h2.conseq (fun m hs => ⟨hs, fun k h1 h2 => by omega⟩) (fun _ _ h => h) fun _ h => h
  exact hstart.bind fun _ => h3.bind fun _ => h4.bind fun _ => h5.bind fun _ => h6.bind fun _ =>
    Triple.pure fun m hm => hm

/-! ## Copying -/

theorem flatMap_readWord (m : Mem) (a n : ℕ) :
    ((List.range n).map fun i => STMFLASH_ReadWord m (a + 4 * i)).flatMap Layout.word.encode =
      read m a (4 * n) := by
  induction n with
  | zero => rfl
  | succ n ih =>
    rw [List.range_succ, List.map_append, List.flatMap_append, ih, Nat.mul_succ, read_append]
    congr 1
    show Layout.word.encode (Layout.word.decode (read m (a + 4 * n) 4)) ++ [] = _
    rw [List.append_nil]
    exact Layout.word.encode_decode (read m (a + 4 * n) 4) (length_read ..)

/-- Words are programmed like their bytes. -/
theorem STMFLASH_Write_triple {m1 : Mem} (a : ℕ) (ws : List (BitVec 32)) (hs : Staged m0 m1)
    (h1 : 0x08000000 ≤ a) (h2 : a + 4 * ws.length ≤ updataAppAddr) :
    Triple (fun m => m = m1) (STMFLASH_Write a ws)
      (fun _ m => m = programs m1 a (ws.flatMap Layout.word.encode)) (Staged m0) := by
  induction ws generalizing m1 a with
  | nil => exact Triple.pure fun m hm => hm
  | cons w ws ih =>
    rw [List.length_cons] at h2
    have hlen : (Layout.word.encode w).length = 4 := Layout.word.length_encode w
    have hword : Triple (fun m => m = m1) (FLASH_ProgramWord a w)
        (fun _ m => m = programs m1 a (Layout.word.encode w)) (Staged m0) := by
      apply Triple.checkedOp _ hs
      exact isFlashAddress_of_lt h1 (by unfold updataAppAddr at h2; omega)
    apply hword.bind
    intro _
    rw [List.flatMap_cons, programs_append, hlen]
    exact ih (a + 4) (hs.programs (by omega)) (by omega) (by omega)

theorem programBytes_triple {m1 : Mem} {a : ℕ} {bs : List Byte} (hs : Staged m0 m1)
    (h1 : 0x08000000 ≤ a) (h2 : a + bs.length ≤ updataAppAddr) :
    Triple (fun m => m = m1) (programBytes a bs) (fun _ m => m = programs m1 a bs)
      (Staged m0) := by
  induction bs generalizing m1 a with
  | nil => exact Triple.pure fun m hm => hm
  | cons b bs ih =>
    rw [List.length_cons] at h2
    have hbyte : Triple (fun m => m = m1) (FLASH_ProgramByte a b)
        (fun _ m => m = program m1 a b) (Staged m0) := by
      apply Triple.checkedOp _ hs
      exact isFlashAddress_of_lt h1 (by unfold updataAppAddr at h2; omega)
    apply hbyte.bind
    intro _
    have hstaged : Staged m0 (programs m1 a [b]) := by
      apply hs.programs
      simp only [List.length_singleton]
      omega
    exact ih hstaged (by omega) (by omega)

theorem writeByteToFlash_triple {m1 : Mem} (a : ℕ) (bs : List Byte) (hs : Staged m0 m1)
    (h1 : 0x08000000 ≤ a) (h2 : a + bs.length ≤ updataAppAddr) :
    Triple (fun m => m = m1) (writeByteToFlash a bs) (fun _ m => m = programs m1 a bs)
      (Staged m0) := by
  unfold writeByteToFlash
  by_cases hnil : bs = []
  · rw [if_pos (Or.inr hnil), hnil]
    exact Triple.pure fun m hm => hm
  · rw [if_neg]
    · exact programBytes_triple hs h1 h2
    · rintro (h | h)
      · omega
      · exact hnil h

/-- The state of the copy: the first `n` bytes are there, and the `k` bytes
    behind them are erased. -/
structure Copying (m0 : Mem) (n k : ℕ) (m : Mem) : Prop where
  staged : Staged m0 m
  copied : Copied m0 n m
  erased : Erased m (applicationAddress + n) k

/-- The next `i` bytes are copied. -/
theorem Copying.next {m : Mem} {n k i : ℕ} (h : Copying m0 n k m) (hi : i ≤ k)
    (hk : n + k = stagedLen m0) (hlen : stagedLen m0 ≤ appSize) :
    Copying m0 (n + i) (k - i)
      (programs m (applicationAddress + n) (read m (updataAppAddr + 4 + n) i)) := by
  have hread : (read m (updataAppAddr + 4 + n) i).length = i := length_read ..
  have hend : applicationAddress + n + i ≤ updataAppAddr := by
    unfold updataAppAddr applicationAddress appSize at *
    omega
  refine ⟨h.staged.programs (by omega), fun j hj => ?_, ?_⟩
  · by_cases hjn : j < n
    · rw [programs_of_disjoint (by omega)]
      exact h.copied j hjn
    · obtain ⟨l, rfl⟩ := Nat.exists_eq_add_of_le (Nat.le_of_not_lt hjn)
      have hl : l < (read m (updataAppAddr + 4 + n) i).length := by omega
      rw [← Nat.add_assoc, programs_of_lt hl, h.erased _ (by omega) (by omega), and_erased,
        getElem_read, ← Nat.add_assoc]
      exact h.staged _ (by omega) (by omega)
  · apply Erased.programs
    · apply h.erased.mono
      · omega
      · omega
    · omega

/-- What a boot leaves of a good staged image: the image itself, or its copy. -/
def GoodInv (m0 : Mem) (m : Mem) : Prop :=
  Staged m0 m ∨ (Copied m0 (stagedLen m0) m ∧ HeaderErased m)

theorem bufSize_pos : 0 < bufSize := by decide

/-- A block is a number of words. -/
theorem bufSize_eq : 4 * (bufSize / 4) = bufSize := by decide

/-- The image ends before the staged one begins. -/
theorem image_below (hlen : stagedLen m0 ≤ appSize) :
    applicationAddress + stagedLen m0 ≤ updataAppAddr := by
  unfold updataAppAddr applicationAddress appSize at *
  omega

theorem applicationAddress_inFlash : 0x08000000 ≤ applicationAddress := by decide

/-- A pass of the loop that copies a whole block. -/
theorem copyBlock_triple (hlen : stagedLen m0 ≤ appSize) {n k : ℕ} (hk : n + k = stagedLen m0)
    (hbig : bufSize ≤ k) :
    Triple (Copying m0 n k)
      (STMFLASH_Read (updataAppAddr + 4 + n) (bufSize / 4) >>= fun buf =>
        STMFLASH_Write (applicationAddress + n) buf)
      (fun _ => Copying m0 (n + bufSize) (k - bufSize)) (GoodInv m0) := by
  have hbound := image_below hlen
  have hstart := applicationAddress_inFlash
  apply Triple.of_forall
  intro m1 hm1
  -- the words that are read are the next block of the image
  apply Triple.bind (Q := fun buf m => m = m1 ∧
    buf = (List.range (bufSize / 4)).map fun i =>
      STMFLASH_ReadWord m1 (updataAppAddr + 4 + n + 4 * i))
  · apply Triple.get
    rintro m rfl
    exact ⟨rfl, rfl⟩
  intro buf
  apply Triple.of_forall
  rintro m ⟨rfl, rfl⟩
  have hwrite := STMFLASH_Write_triple (applicationAddress + n)
    ((List.range (bufSize / 4)).map fun i =>
      STMFLASH_ReadWord m (updataAppAddr + 4 + n + 4 * i)) hm1.staged (by omega)
    (by rw [List.length_map, List.length_range, bufSize_eq]; omega)
  rw [flatMap_readWord, bufSize_eq] at hwrite
  refine hwrite.conseq (fun _ h => h) ?_ fun _ h => Or.inl h
  intro _ m' hm'
  rw [show m' = _ from hm']
  exact hm1.next hbig hk hlen

/-- The copy of the bytes behind the last whole block. -/
theorem copyRest_triple (hlen : stagedLen m0 ≤ appSize) {n k : ℕ} (hk : n + k = stagedLen m0) :
    Triple (Copying m0 n k)
      (STMFLASH_ReadMoreByte (updataAppAddr + 4 + n) k >>= fun buf =>
        writeByteToFlash (applicationAddress + n) buf)
      (fun _ => Copying m0 (stagedLen m0) 0) (GoodInv m0) := by
  have hbound := image_below hlen
  have hstart := applicationAddress_inFlash
  apply Triple.of_forall
  intro m1 hm1
  apply Triple.bind (Q := fun buf m => m = m1 ∧ buf = read m1 (updataAppAddr + 4 + n) k)
  · apply Triple.get
    rintro m rfl
    exact ⟨rfl, rfl⟩
  intro buf
  apply Triple.of_forall
  rintro m ⟨rfl, rfl⟩
  have hwrite := writeByteToFlash_triple (applicationAddress + n)
    (read m (updataAppAddr + 4 + n) k) hm1.staged (by omega) (by rw [length_read]; omega)
  refine hwrite.conseq (fun _ h => h) ?_ fun _ h => Or.inl h
  rintro _ _ rfl
  have hnext := hm1.next le_rfl hk hlen
  rwa [Nat.sub_self, hk] at hnext

/-- The staged length is cleared once the copy is whole. -/
theorem clearCopied_triple (hlen : stagedLen m0 ≤ appSize) :
    Triple (Copying m0 (stagedLen m0) 0) clearSaveDataSector
      (fun _ => Copied m0 (stagedLen m0)) (GoodInv m0) := by
  have hclear := clearSaveDataSector_triple (A := Copied m0 (stagedLen m0))
    (S := Staged m0) fun m a n ha hc => hc.erase hlen ha
  refine hclear.conseq (fun m hm => ⟨hm.copied, hm.staged⟩) (fun _ m hm => hm.1) ?_
  rintro m ⟨hc, hs | hh⟩
  · exact Or.inl hs
  · exact Or.inr ⟨hc, hh⟩

theorem copyApp_triple (hlen : stagedLen m0 ≤ appSize) {n k : ℕ} (hk : n + k = stagedLen m0) :
    Triple (Copying m0 n k) (copyApp (updataAppAddr + 4 + n) (applicationAddress + n) k)
      (fun _ => Copied m0 (stagedLen m0)) (GoodInv m0) := by
  induction k using Nat.strong_induction_on generalizing n with
  | _ k ih =>
    rw [copyApp]
    by_cases hbig : bufSize < k
    · rw [if_pos hbig, ← Prog.bind_assoc]
      apply Triple.bind (copyBlock_triple hlen hk (Nat.le_of_lt hbig))
      intro _
      rw [Nat.add_assoc (updataAppAddr + 4), Nat.add_assoc applicationAddress]
      exact ih (k - bufSize) (Nat.sub_lt_self bufSize_pos (Nat.le_of_lt hbig)) (by omega)
    · rw [if_neg hbig, ← Prog.bind_assoc]
      apply Triple.bind (copyRest_triple hlen hk)
      intro _
      exact clearCopied_triple hlen

/-! ## Boots -/

/-- A boot with a good staged image, or with its copy, ends with the copy. -/
theorem main_good (hgood : checkFlashFile m0 = 0) (hlen : stagedLen m0 ≤ appSize) :
    Triple (GoodInv m0) main (fun _ => Copied m0 (stagedLen m0)) (GoodInv m0) := by
  apply Triple.bind (Q := fun fileLen m => GoodInv m0 m ∧
    fileLen = STMFLASH_ReadWord m updataAppAddr)
  · exact Triple.get fun m hm => ⟨hm, rfl⟩
  intro fileLen
  apply Triple.of_forall
  rintro m1 ⟨hs | ⟨hc, hh⟩, rfl⟩
  · have hword := hs.readWord
    have hcond : STMFLASH_ReadWord m0 updataAppAddr ≠ 0 ∧
        STMFLASH_ReadWord m0 updataAppAddr ≠ 0xffffffff := by
      by_contra hnot
      rw [checkFlashFile, if_neg hnot] at hgood
      cases hgood
    rw [hword, if_pos hcond]
    apply Triple.bind (Q := fun ret m => Staged m0 m ∧ ret = 0)
    · apply Triple.get
      rintro m rfl
      exact ⟨hs, hs.checkFlashFile.trans hgood⟩
    intro ret
    apply Triple.of_forall
    rintro m2 ⟨hs2, rfl⟩
    rw [if_neg (by simp)]
    apply Triple.bind (Q := fun _ m => Staged m0 m ∧ Erased m applicationAddress appSize)
    · refine clearAppDataSector_triple.conseq ?_ (fun _ _ h => h) fun _ h => Or.inl h
      rintro m rfl
      exact hs2
    intro _
    have hcopy := copyApp_triple hlen (n := 0) (k := stagedLen m0) (Nat.zero_add _)
    refine hcopy.conseq ?_ (fun _ _ h => h) fun _ h => h
    rintro m ⟨hs3, he⟩
    exact ⟨hs3, fun k hk => absurd hk (by omega), he.mono le_rfl (by omega)⟩
  · rw [readWord_of_erased hh, if_neg (by simp)]
    apply Triple.pure
    rintro m rfl
    exact hc

/-- What a boot leaves of a bad staged image. -/
def BadInv (m0 : Mem) (m : Mem) : Prop := AppUnchanged m0 m ∧ (Staged m0 m ∨ HeaderErased m)

/-- A boot with a bad staged image, or without one, leaves the application
    unchanged. -/
theorem main_bad (hbad : checkFlashFile m0 ≠ 0) :
    Triple (BadInv m0) main (fun _ => AppUnchanged m0) (BadInv m0) := by
  apply Triple.bind (Q := fun fileLen m => BadInv m0 m ∧
    fileLen = STMFLASH_ReadWord m updataAppAddr)
  · exact Triple.get fun m hm => ⟨hm, rfl⟩
  intro fileLen
  apply Triple.of_forall
  rintro m1 ⟨⟨ha, hs | hh⟩, rfl⟩
  · by_cases hcond : STMFLASH_ReadWord m1 updataAppAddr ≠ 0 ∧
        STMFLASH_ReadWord m1 updataAppAddr ≠ 0xffffffff
    · rw [if_pos hcond]
      apply Triple.bind (Q := fun ret m => (AppUnchanged m0 m ∧ Staged m0 m) ∧ ret ≠ 0)
      · apply Triple.get
        rintro m rfl
        exact ⟨⟨ha, hs⟩, by rw [hs.checkFlashFile]; exact hbad⟩
      intro ret
      apply Triple.of_forall
      rintro m2 ⟨hm2, hret⟩
      rw [if_pos hret]
      have hclear := clearSaveDataSector_triple (A := AppUnchanged m0) (S := Staged m0)
        fun m a n ha hc => hc.erase ha
      refine hclear.conseq ?_ (fun _ m hm => hm.1) fun m hm => hm
      rintro m rfl
      exact hm2
    · rw [if_neg hcond]
      apply Triple.pure
      rintro m rfl
      exact ha
  · rw [readWord_of_erased hh, if_neg (by simp)]
    apply Triple.pure
    rintro m rfl
    exact ha

theorem stagedLen_of_good (hgood : checkFlashFile m0 = 0)
    (hlen : stagedLen m0 ≤ appSize ∨ STMFLASH_ReadWord m0 updataAppAddr = 0xffffffff) :
    stagedLen m0 ≤ appSize := by
  rcases hlen with h | h
  · exact h
  · rw [checkFlashFile, if_neg (by simp [h])] at hgood
    cases hgood

/-- After any number of boots that were cut, on any contents of the flash with a
    staged length of at most the size of the application area (or an erased one):
    a boot reaches `IAP_BOOT` if the power lasts, never hangs, and whenever it
    reaches `IAP_BOOT`, the application is the staged image if that passed the
    check at first, and unchanged if not. -/
theorem boot_recovers {m : Mem}
    (hlen : stagedLen m0 ≤ appSize ∨ STMFLASH_ReadWord m0 updataAppAddr = 0xffffffff)
    (hcuts : CutRuns main m0 m) :
    (∃ m', main m none = .done () m' none) ∧ (∀ power, main m power ≠ .hang) ∧
      ∀ power m' power', main m power = .done () m' power' →
        (checkFlashFile m0 = 0 → ∀ k < stagedLen m0,
          m' (applicationAddress + k) = m0 (updataAppAddr + 4 + k)) ∧
        (checkFlashFile m0 ≠ 0 → ∀ k < appSize,
          m' (applicationAddress + k) = m0 (applicationAddress + k)) := by
  by_cases hgood : checkFlashFile m0 = 0
  · have hmain := main_good hgood (stagedLen_of_good hgood hlen)
    have hinv : GoodInv m0 m := hmain.recovers (Or.inl fun _ _ _ => rfl) hcuts
    obtain ⟨_, m', hrun, -⟩ := hmain.ends hinv
    refine ⟨⟨m', hrun⟩, hmain.not_hang hinv, fun power m' power' hdone => ?_⟩
    exact ⟨fun _ => hmain.done hinv hdone, fun hbad => absurd hgood hbad⟩
  · have hmain := main_bad hgood
    have hinv : BadInv m0 m :=
      hmain.recovers ⟨fun _ _ => rfl, Or.inl fun _ _ _ => rfl⟩ hcuts
    obtain ⟨_, m', hrun, -⟩ := hmain.ends hinv
    refine ⟨⟨m', hrun⟩, hmain.not_hang hinv, fun power m' power' hdone => ?_⟩
    exact ⟨fun hg => absurd hg hgood, fun _ => hmain.done hinv hdone⟩

/-- A staged image of four bytes `0xFF`, which passes the check. -/
def stagedFour : Mem := fun k =>
  if k = updataAppAddr then 4 else if updataAppAddr < k ∧ k < updataAppAddr + 4 then 0 else 0xFF

theorem checkFlashFile_stagedFour : checkFlashFile stagedFour = 0 := by
  have hlen : STMFLASH_ReadWord stagedFour updataAppAddr = 4 := by decide +kernel
  have hcrc : calcFlashCrc stagedFour (updataAppAddr + 4) 4 = 0 := by
    rw [calcFlashCrc_eq]
    decide +kernel
  rw [checkFlashFile, hlen]
  show (if (4 : BitVec 32) ≠ 0 ∧ (4 : BitVec 32) ≠ 0xffffffff then
    if calcFlashCrc stagedFour (updataAppAddr + 4) 4 = 0 then 0 else 1 else 1) = 0
  rw [hcrc]
  rfl

/-- The image arrives although the power failed before the first erase. -/
theorem boot_recovers_four :
    (∃ m', main stagedFour none = .done () m' none) ∧
      ∀ power m' power', main stagedFour power = .done () m' power' →
        ∀ k < 4, m' (applicationAddress + k) = 0xFF := by
  have hlen : STMFLASH_ReadWord stagedFour updataAppAddr = 4 := by decide +kernel
  have hstaged : stagedLen stagedFour = 4 := by rw [stagedLen, hlen]; rfl
  have hcut : main stagedFour (some 0) = .cut stagedFour := by
    simp only [main, bind, Prog.bind, Prog.get, hlen]
    rw [if_pos (by decide)]
    simp only [Prog.bind, Prog.get, checkFlashFile_stagedFour]
    rfl
  have hrec := boot_recovers (Or.inl (by rw [hstaged]; decide)) (CutRuns.cut hcut (.none _))
  refine ⟨hrec.1, fun power m' power' hdone k hk => ?_⟩
  rw [(hrec.2.2 power m' power' hdone).1 checkFlashFile_stagedFour k (by omega)]
  interval_cases k <;> rfl

end Abox.Boot
