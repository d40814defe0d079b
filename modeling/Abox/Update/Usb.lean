import Abox.Config.NetFile
import Abox.Update.Staging

/-!
# An update from a USB disk

Model of `updataSet` (`drv_usbh.c` lines 210–270). The file is read into `buff` in
blocks of `USB_BUF_LEN` bytes, and each block is programmed behind the ones before.
The first block is also looked at for the version; a block that is not full ends
the loop. `f_read` returns what is left of the file, up to the size of the buffer.

* `updataSet_iff`: every file with a good version that fits into the staging area
  is staged, and accepted exactly if its checksum is right, unless it fills the
  area to the last byte.
* `fullFile_hangs`: for a file that does, the loop never ends.
-/

namespace Abox.Update

open Nor Flash Config

/-- `APPF_VER_LOWER` and `APPF_VER_CEILING` (`ctrl.h` lines 40–41). -/
def appfVerLower : BitVec 32 := 300
def appfVerCeiling : BitVec 32 := 400

/-- `f_read` of `USB_BUF_LEN` bytes: the buffer and what is left of the file. -/
def f_read (buff rest : List Byte) : List Byte × List Byte :=
  (rest.take usbBufLen ++ buff.drop rest.length, rest.drop usbBufLen)

/-- The file's head (lines 230–252), `none` if the version is not allowed. -/
def fileHead (m : Mem) (buff : List Byte) (fsize : BitVec 32) (s_addr : ℕ) :
    Option (Option (Mem × ℕ)) :=
  let ver := u32At buff 28
  if appfVerLower ≤ ver ∧ ver < appfVerCeiling then
    (writeByteToFlash (clearSaveDataSector m) s_addr (Layout.word.encode fsize)).map fun (_, m) =>
      some (m, s_addr + 4)
  else some none

/-- The loop of `updataSet`, in its `i`-th pass; `rest` is what is left of the file.
    `none`: the program hangs. -/
def updataLoop (isDeviceConnected : ℕ → Bool) (fsize : BitVec 32) (m : Mem) (buff rest : List Byte)
    (s_addr i : ℕ) (readTime : Bool) : Option (RtErr × Mem) :=
  if ¬ isDeviceConnected i then some (.rtError, m)
  else
    let blen := min usbBufLen rest.length
    let buff := (f_read buff rest).1
    (if readTime then fileHead m buff fsize s_addr else some (some (m, s_addr))).bind fun head =>
    match head with
    | none => some (.rtError, m)
    | some (m, s_addr) =>
      (if blen = 0 then some m else
        (writeByteToFlash m s_addr (buff.take blen)).map fun (_, m) => m).bind fun m =>
      if _ : blen < usbBufLen then some (checkFlashFile m, m)
      else
        updataLoop isDeviceConnected fsize m buff (f_read buff rest).2 (s_addr + blen) (i + 1) false
termination_by rest.length
decreasing_by
  simp only [f_read, List.length_drop]
  unfold usbBufLen at *
  omega

/-- `updataSet` on a file with the content `file`. -/
def updataSet (isDeviceConnected : ℕ → Bool) (m : Mem) (file : List Byte) : Option (RtErr × Mem) :=
  if file = [] then some (.rtError, m)
  else
    updataLoop isDeviceConnected (BitVec.ofNat 32 file.length) m (List.replicate usbBufLen 0) file
      updataAppAddr 0 true

/-- The version word of a file is in range; what is behind the file reads as zero. -/
def VersionOk (file : List Byte) : Prop :=
  appfVerLower ≤ u32At file 28 ∧ u32At file 28 < appfVerCeiling

instance (file : List Byte) : Decidable (VersionOk file) := inferInstanceAs (Decidable (_ ∧ _))

/-- The size of the staging area without the length word. -/
def stagingCapacity : ℕ := flashEnd - (updataAppAddr + 4)

/-- `updataSet` ends, the staging area holds the length and the bytes of the file, and
    the file is accepted exactly if its checksum is right. -/
def StagesFile (isDeviceConnected : ℕ → Bool) (m : Mem) (file : List Byte) : Prop :=
  ∃ r m', updataSet isDeviceConnected m file = some (r, m') ∧
    read m' updataAppAddr 4 = Layout.word.encode (BitVec.ofNat 32 file.length) ∧
    read m' (updataAppAddr + 4) file.length = file ∧
    (r = .rtEok ↔ crc32 0xffffffff file = 0)

/-! ## The blocks -/

/-- What is programmed in a pass is the next part of the file. -/
theorem take_f_read (buff rest : List Byte) :
    (f_read buff rest).1.take (min usbBufLen rest.length) = rest.take usbBufLen := by
  have hlen : (rest.take usbBufLen).length = min usbBufLen rest.length := List.length_take
  unfold f_read
  rw [← hlen, List.take_left]

/-- One pass behind the head, in front of the last byte of the flash. -/
theorem updataLoop_pass {isDeviceConnected : ℕ → Bool} (hconn : ∀ i, isDeviceConnected i = true)
    {fsize : BitVec 32} {m : Mem} {buff rest : List Byte} {s_addr i : ℕ} (h0 : 0x08000000 ≤ s_addr)
    (h : s_addr + min usbBufLen rest.length ≤ 0x080FFFFF) :
    updataLoop isDeviceConnected fsize m buff rest s_addr i false =
      if rest.length < usbBufLen then some (checkFlashFile (programs m s_addr rest),
        programs m s_addr rest)
      else updataLoop isDeviceConnected fsize (programs m s_addr (rest.take usbBufLen))
        (f_read buff rest).1 (rest.drop usbBufLen) (s_addr + usbBufLen) (i + 1) false := by
  have hwrite : (if min usbBufLen rest.length = 0 then some m else
      (writeByteToFlash m s_addr ((f_read buff rest).1.take (min usbBufLen rest.length))).map
        fun (_, m) => m) = some (programs m s_addr (rest.take usbBufLen)) := by
    rw [take_f_read]
    by_cases hnil : min usbBufLen rest.length = 0
    · have : rest.take usbBufLen = [] := List.length_eq_zero_iff.1 (by rw [List.length_take, hnil])
      rw [if_pos hnil, this]
      rfl
    · have hne : rest.take usbBufLen ≠ [] := by
        intro hnil'
        rw [← List.length_eq_zero_iff, List.length_take] at hnil'
        exact hnil hnil'
      rw [if_neg hnil, writeByteToFlash_eq hne h0 (by rw [List.length_take]; exact h)]
      rfl
  rw [updataLoop]
  simp only [hconn i, not_true_eq_false, if_false, Bool.false_eq_true, Option.bind_some, hwrite]
  by_cases hlast : rest.length < usbBufLen
  · rw [dif_pos (by omega), if_pos hlast, List.take_of_length_le (Nat.le_of_lt hlast)]
  · have hfull : min usbBufLen rest.length = usbBufLen := by omega
    rw [dif_neg (by omega), if_neg hlast, hfull]
    rfl

/-- A pass over the last byte of the flash hangs. -/
theorem updataLoop_hangs {isDeviceConnected : ℕ → Bool} (hconn : ∀ i, isDeviceConnected i = true)
    {fsize : BitVec 32} {m : Mem} {buff rest : List Byte} {s_addr i : ℕ} (h0 : 0x08000000 ≤ s_addr)
    (h1 : s_addr ≤ 0x080FFFFF) (h : 0x080FFFFF < s_addr + min usbBufLen rest.length) :
    updataLoop isDeviceConnected fsize m buff rest s_addr i false = none := by
  have hne : min usbBufLen rest.length ≠ 0 := by omega
  have hwrite : writeByteToFlash m s_addr (rest.take usbBufLen) = none := by
    cases hres : writeByteToFlash m s_addr (rest.take usbBufLen) with
    | none => rfl
    | some p =>
      obtain ⟨r, m'⟩ := p
      have hflash := (writeByteToFlash_some hres (by omega)).2
      have := le_of_isFlashAddress h0 h1 hflash
      rw [List.length_take] at this
      omega
  rw [updataLoop]
  simp only [hconn i, not_true_eq_false, if_false, Bool.false_eq_true, Option.bind_some,
    take_f_read, if_neg hne, hwrite]
  rfl

/-- The passes behind the head program the rest of the file, if it ends in front of the
    last byte of the flash, and hang otherwise. -/
theorem updataLoop_rest {isDeviceConnected : ℕ → Bool} (hconn : ∀ i, isDeviceConnected i = true)
    {fsize : BitVec 32} {m : Mem} {buff rest : List Byte} {s_addr i : ℕ} (h0 : 0x08000000 ≤ s_addr)
    (h1 : s_addr ≤ 0x080FFFFF) :
    updataLoop isDeviceConnected fsize m buff rest s_addr i false =
      if s_addr + rest.length ≤ 0x080FFFFF then
        some (checkFlashFile (programs m s_addr rest), programs m s_addr rest)
      else none := by
  induction hn : rest.length using Nat.strong_induction_on generalizing m buff rest s_addr i with
  | _ n ih =>
    subst hn
    by_cases hpass : s_addr + min usbBufLen rest.length ≤ 0x080FFFFF
    · rw [updataLoop_pass hconn h0 hpass]
      by_cases hlast : rest.length < usbBufLen
      · have hmin : min usbBufLen rest.length = rest.length := Nat.min_eq_right (Nat.le_of_lt hlast)
        rw [if_pos hlast, if_pos (by omega)]
      · have hpos : 0 < usbBufLen := by decide
        have hfull : (rest.take usbBufLen).length = usbBufLen := by rw [List.length_take]; omega
        have hdrop : (rest.drop usbBufLen).length = rest.length - usbBufLen := List.length_drop
        rw [if_neg hlast, ih _ (by rw [hdrop]; omega) (by omega) (by omega) rfl, hdrop]
        have happend : programs (programs m s_addr (rest.take usbBufLen)) (s_addr + usbBufLen)
            (rest.drop usbBufLen) = programs m s_addr rest := by
          conv => rhs; rw [← List.take_append_drop usbBufLen rest, programs_append, hfull]
        rw [happend]
        by_cases hend : s_addr + rest.length ≤ 0x080FFFFF
        · rw [if_pos hend, if_pos (by omega)]
        · rw [if_neg hend, if_neg (by omega)]
    · rw [updataLoop_hangs hconn h0 h1 (by omega), if_neg (by omega)]

/-! ## The whole file -/

theorem u32At_f_read (file : List Byte) :
    u32At (f_read (List.replicate usbBufLen 0) file).1 28 = u32At file 28 := by
  have hget : ∀ k < usbBufLen, (f_read (List.replicate usbBufLen 0) file).1.getD k 0 =
      file.getD k 0 := by
    intro k hk
    unfold f_read
    by_cases hlt : k < file.length
    · rw [List.getD_append _ _ _ _ (by rw [List.length_take]; omega), List.getD_eq_getElem?_getD,
        List.getElem?_take_of_lt hk, ← List.getD_eq_getElem?_getD]
    · rw [List.take_of_length_le (by omega), List.getD_append_right _ _ _ _ (by omega),
        List.getD_eq_default file 0 (by omega), List.drop_replicate, List.getD_eq_getElem?_getD]
      exact List.getElem?_getD_replicate_default_eq ..
  unfold u32At u16At
  rw [hget 28 (by decide), hget 29 (by decide), hget 30 (by decide), hget 31 (by decide)]

/-- The memory after the head: an erased staging area behind the length word. -/
def headMem (m : Mem) (fsize : ℕ) : Mem :=
  programs (clearSaveDataSector m) updataAppAddr (Layout.word.encode (BitVec.ofNat 32 fsize))

/-- `updataSet` on a file with a good version. -/
theorem updataSet_eq {isDeviceConnected : ℕ → Bool} (hconn : ∀ i, isDeviceConnected i = true)
    (m : Mem) {file : List Byte} (hver : VersionOk file) :
    updataSet isDeviceConnected m file =
      if updataAppAddr + 4 + file.length ≤ 0x080FFFFF then
        some (checkFlashFile (programs (headMem m file.length) (updataAppAddr + 4) file),
          programs (headMem m file.length) (updataAppAddr + 4) file)
      else none := by
  have hne : file ≠ [] := by
    rintro rfl
    exact absurd hver (by decide)
  have hhead : fileHead m (f_read (List.replicate usbBufLen 0) file).1
      (BitVec.ofNat 32 file.length) updataAppAddr =
        some (some (headMem m file.length, updataAppAddr + 4)) := by
    have hver' : appfVerLower ≤ u32At file 28 ∧ u32At file 28 < appfVerCeiling := hver
    unfold fileHead
    simp only [u32At_f_read]
    rw [if_pos hver', writeByteToFlash_eq (by simp [Layout.word]) (by decide)
      (by rw [Layout.length_encode]; decide)]
    rfl
  have hfirst : updataLoop isDeviceConnected (BitVec.ofNat 32 file.length) m
      (List.replicate usbBufLen 0) file updataAppAddr 0 true =
      updataLoop isDeviceConnected (BitVec.ofNat 32 file.length) (headMem m file.length)
        (List.replicate usbBufLen 0) file (updataAppAddr + 4) 0 false := by
    rw [updataLoop]
    conv => rhs; rw [updataLoop]
    simp only [hconn 0, not_true_eq_false, if_false, if_true, hhead, Bool.false_eq_true,
      Option.bind_some]
  rw [updataSet, if_neg hne, hfirst, updataLoop_rest hconn (by decide) (by decide)]

/-- What a file in the staging area reads back as. -/
theorem read_staged (m : Mem) {file : List Byte} (h : file.length ≤ stagingCapacity) :
    read (programs (headMem m file.length) (updataAppAddr + 4) file) updataAppAddr 4 =
        Layout.word.encode (BitVec.ofNat 32 file.length) ∧
      read (programs (headMem m file.length) (updataAppAddr + 4) file) (updataAppAddr + 4)
        file.length = file := by
  have hcap : stagingCapacity = 0x5FFFC := by decide
  have hlen : (Layout.word.encode (BitVec.ofNat 32 file.length)).length = 4 :=
    Layout.length_encode ..
  have herased := erased_clearSaveDataSector m
  constructor
  · rw [read_programs_of_disjoint (Or.inr le_rfl), headMem]
    have hroom : Erased (clearSaveDataSector m) updataAppAddr
        (Layout.word.encode (BitVec.ofNat 32 file.length)).length :=
      herased.mono le_rfl (by rw [hlen]; decide)
    have hread := read_programs_of_erased hroom
    rwa [hlen] at hread
  · apply read_programs_of_erased
    apply Erased.programs
    · exact herased.mono (by omega) (by omega)
    · exact Or.inl (by rw [hlen])

theorem checkFlashFile_staged (m : Mem) {file : List Byte} (h0 : file ≠ [])
    (h : file.length ≤ stagingCapacity) :
    checkFlashFile (programs (headMem m file.length) (updataAppAddr + 4) file) = .rtEok ↔
      crc32 0xffffffff file = 0 := by
  have hcap : stagingCapacity = 0x5FFFC := by decide
  obtain ⟨hword, hfile⟩ := read_staged m h
  have hflen : STMFLASH_ReadWord (programs (headMem m file.length) (updataAppAddr + 4) file)
      updataAppAddr = BitVec.ofNat 32 file.length := by
    unfold STMFLASH_ReadWord
    rw [hword]
    exact Layout.word.decode_encode _
  have hnat : (BitVec.ofNat 32 file.length).toNat = file.length := by
    rw [BitVec.toNat_ofNat]
    exact Nat.mod_eq_of_lt (by omega)
  have hpos : 0 < file.length := List.length_pos_iff.2 h0
  have hgood : BitVec.ofNat 32 file.length ≠ 0 ∧ BitVec.ofNat 32 file.length ≠ 0xffffffff := by
    constructor
    · intro heq
      rw [heq] at hnat
      exact absurd hnat (Nat.ne_of_lt hpos)
    · intro heq
      rw [heq] at hnat
      have : (0xffffffff : BitVec 32).toNat = 4294967295 := by decide
      omega
  unfold checkFlashFile
  simp only [hflen]
  rw [if_pos hgood, hnat, calcFlashCrc_eq, hfile]
  simp

/-- A file that fits, with a good version, is staged and judged by its checksum exactly
    if it does not reach the last byte of the staging area. -/
theorem updataSet_iff (isDeviceConnected : ℕ → Bool) (hconn : ∀ i, isDeviceConnected i = true)
    (m : Mem) (file : List Byte) (hfit : file.length ≤ stagingCapacity) (hver : VersionOk file) :
    StagesFile isDeviceConnected m file ↔ file.length < stagingCapacity := by
  have hcap : stagingCapacity = 0x5FFFC := by decide
  have hbase : updataAppAddr = 0x080A0000 := rfl
  have hne : file ≠ [] := by
    rintro rfl
    exact absurd hver (by decide)
  unfold StagesFile
  rw [updataSet_eq hconn m hver]
  constructor
  · rintro ⟨r, m', hres, -⟩
    by_contra hlarge
    rw [if_neg (by omega)] at hres
    cases hres
  · intro hlt
    obtain ⟨hword, hfile⟩ := read_staged m hfit
    exact ⟨_, _, if_pos (by omega), hword, hfile, checkFlashFile_staged m hne hfit⟩

/-- A file of 32 bytes with the version 300. -/
def smallFile : List Byte := List.replicate 28 0 ++ [0x2C, 1, 0, 0]

theorem updataSet_iff_small :
    (∀ i : ℕ, (fun _ => true) i = true) ∧ smallFile.length ≤ stagingCapacity ∧ VersionOk smallFile ∧
      StagesFile (fun _ => true) (fun _ => 0) smallFile :=
  ⟨fun _ => rfl, by decide, by decide,
    (updataSet_iff (fun _ => true) (fun _ => rfl) (fun _ => 0) smallFile (by decide) (by decide)).2
      (by decide)⟩

/-- A file that fills the staging area. -/
def fullFile : List Byte := smallFile ++ List.replicate (stagingCapacity - 32) 0

/-- The last byte of the staging area cannot be programmed. -/
theorem fullFile_hangs :
    fullFile.length = stagingCapacity ∧ VersionOk fullFile ∧
      updataSet (fun _ => true) (fun _ => 0) fullFile = none ∧
      ¬ StagesFile (fun _ => true) (fun _ => 0) fullFile := by
  have hlen : fullFile.length = stagingCapacity := by
    unfold fullFile
    rw [List.length_append, List.length_replicate]
    decide
  have hver : VersionOk fullFile := by
    have hword : u32At fullFile 28 = u32At smallFile 28 := rfl
    unfold VersionOk
    rw [hword]
    decide
  have hnone : updataSet (fun _ => true) (fun _ => 0) fullFile = none := by
    rw [updataSet_eq (fun _ => rfl) _ hver, hlen]
    exact if_neg (by decide)
  refine ⟨hlen, hver, hnone, ?_⟩
  rintro ⟨r, m', hres, -⟩
  rw [hnone] at hres
  cases hres

end Abox.Update
