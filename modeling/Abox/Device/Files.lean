import Abox.Device.Retry
import Abox.Update.Usb
import Abox.Ymodem.Staging

/-!
# Programs from a file, one flash operation after the other

`updataSet` (`drv_usbh.c` lines 210–270) and the callbacks of `ymodem/tofile.c` for a program
again, with the operations of the flash.

* `updataSet_refines`, `ymodem_refines`: with power that lasts they are the functions of
  `Abox.Update.Usb` and `Abox.Ymodem.Tofile`; a power failure leaves all that lies in front of
  the staging area as it was.
-/

namespace Abox.Device

open Nor PowerCut Flash Config Update

/-! ## From a USB disk -/

/-- The file's head (lines 230–252). -/
def fileHead (buff : List Byte) (fsize : BitVec 32) (s_addr : ℕ) : Prog Mem (Option ℕ) :=
  let ver := u32At buff 28
  if appfVerLower ≤ ver ∧ ver < appfVerCeiling then do
    clearSaveDataSector
    let _ ← writeByteToFlash s_addr (Layout.word.encode fsize)
    pure (some (s_addr + 4))
  else pure none

/-- What is programmed of a block (lines 255–259). -/
def writeBlock (s_addr : ℕ) (data : List Byte) (blen : ℕ) : Prog Mem Unit :=
  if blen = 0 then pure ()
  else do
    let _ ← writeByteToFlash s_addr data
    pure ()

/-- The loop of `updataSet`. -/
def updataLoop (isDeviceConnected : ℕ → Bool) (fsize : BitVec 32) (buff rest : List Byte)
    (s_addr i : ℕ) (readTime : Bool) : Prog Mem RtErr :=
  if ¬ isDeviceConnected i then pure .rtError
  else
    let blen := min usbBufLen rest.length
    let buff := (f_read buff rest).1
    (if readTime then fileHead buff fsize s_addr else pure (some s_addr)) >>= fun head =>
    match head with
    | none => pure .rtError
    | some s_addr =>
      writeBlock s_addr (buff.take blen) blen >>= fun _ =>
      if _ : blen < usbBufLen then Prog.get Update.checkFlashFile
      else
        updataLoop isDeviceConnected fsize buff (f_read buff rest).2 (s_addr + blen) (i + 1) false
termination_by rest.length
decreasing_by
  simp only [f_read, List.length_drop]
  unfold usbBufLen at *
  omega

/-- `updataSet` on a file with the content `file`. -/
def updataSet (isDeviceConnected : ℕ → Bool) (file : List Byte) : Prog Mem RtErr :=
  if file = [] then pure .rtError
  else
    updataLoop isDeviceConnected (BitVec.ofNat 32 file.length) (List.replicate usbBufLen 0) file
      updataAppAddr 0 true

/-- The result of `fileHead` over `m`, as a partial function. -/
def headResult (m : Mem) : Option (Option (Mem × ℕ)) → Option (Option ℕ × Mem)
  | none => none
  | some none => some (none, m)
  | some (some (m', s_addr)) => some (some s_addr, m')

theorem fileHead_refines (buff : List Byte) (fsize : BitVec 32) {s_addr : ℕ}
    (ha : updataAppAddr ≤ s_addr) : Refines (fileHead buff fsize s_addr)
      (fun m => headResult m (Update.fileHead m buff fsize s_addr)) Kept := by
  intro m power
  beta_reduce
  unfold fileHead Update.fileHead
  dsimp only
  split_ifs
  · have hclear := (clearSaveDataSector_refines m power).mono rfl fun t ht => kept_of_cleared ht
    refine hclear.bind (g := fun r => (Flash.writeByteToFlash r.2 s_addr
      (Layout.word.encode fsize)).map fun r => (some (s_addr + 4), r.2))
      (fun _ t power' ht => ?_) ?_
    · cases ht
      have hwrite := (writeByteToFlash_refines s_addr (Layout.word.encode fsize)
        (Update.clearSaveDataSector m) power').mono rfl fun t ht =>
          (kept_of_erased (someErased_clearSaveDataSector m)).trans (kept_of_part ht ha)
      refine hwrite.bind (g := fun r => some (some (s_addr + 4), r.2))
        (fun _ _ _ _ => ⟨rfl, id⟩) ?_
      beta_reduce
      cases Flash.writeByteToFlash (Update.clearSaveDataSector m) s_addr _ <;> rfl
    · dsimp only [Option.bind_some]
      cases Flash.writeByteToFlash (Update.clearSaveDataSector m) s_addr _ <;> rfl
  · exact ⟨rfl, id⟩

/-- A block that is programmed. -/
def blockResult (m : Mem) (s_addr : ℕ) (data : List Byte) (blen : ℕ) : Option Mem :=
  if blen = 0 then some m else (Flash.writeByteToFlash m s_addr data).map fun r => r.2

theorem writeBlock_refines {s_addr : ℕ} (data : List Byte) (blen : ℕ)
    (ha : updataAppAddr ≤ s_addr) : Refines (writeBlock s_addr data blen)
      (fun m => (blockResult m s_addr data blen).map fun m => ((), m)) Kept := by
  intro m power
  beta_reduce
  unfold writeBlock blockResult
  split_ifs
  · exact ⟨rfl, id⟩
  · have hwrite := (writeByteToFlash_refines s_addr data m power).mono rfl fun t ht =>
      kept_of_part ht ha
    refine hwrite.bind (g := fun r => some ((), r.2)) (fun _ _ _ _ => ⟨rfl, id⟩) ?_
    beta_reduce
    cases Flash.writeByteToFlash m s_addr data <;> rfl

theorem kept_of_head {m m' : Mem} {buff : List Byte} {fsize : BitVec 32} {s_addr a : ℕ}
    (h : Update.fileHead m buff fsize s_addr = some (some (m', a))) (ha : updataAppAddr ≤ s_addr) :
    Kept m m' ∧ a = s_addr + 4 := by
  unfold Update.fileHead at h
  dsimp only at h
  split_ifs at h
  · cases hw : Flash.writeByteToFlash (Update.clearSaveDataSector m) s_addr
        (Layout.word.encode fsize) with
    | none =>
      rw [hw] at h
      cases h
    | some r =>
      rw [hw] at h
      cases h
      have hclear := kept_of_erased (someErased_clearSaveDataSector m)
      exact ⟨hclear.trans (kept_of_written hw ha), rfl⟩
  · cases h

theorem kept_of_block {m m' : Mem} {s_addr blen : ℕ} {data : List Byte}
    (h : blockResult m s_addr data blen = some m') (ha : updataAppAddr ≤ s_addr) : Kept m m' := by
  unfold blockResult at h
  split_ifs at h
  · cases h
    exact Kept.refl _
  · cases hw : Flash.writeByteToFlash m s_addr data with
    | none =>
      rw [hw] at h
      cases h
    | some r =>
      rw [hw] at h
      cases h
      exact kept_of_written hw ha

/-- What a pass starts with: the head of the file, or nothing. -/
theorem passHead_follows {m0 m : Mem} (buff : List Byte) (fsize : BitVec 32) {s_addr : ℕ}
    (readTime : Bool) (ha : updataAppAddr ≤ s_addr) (hm : Kept m0 m) (power : Option ℕ) :
    ((if readTime then fileHead buff fsize s_addr else pure (some s_addr) :
      Prog Mem (Option ℕ)) m power).Follows
      (headResult m (if readTime then Update.fileHead m buff fsize s_addr
        else some (some (m, s_addr)))) (Kept m0) power := by
  cases readTime with
  | false => exact ⟨rfl, id⟩
  | true => exact (fileHead_refines buff fsize ha m power).mono rfl fun t ht => hm.trans ht

theorem kept_of_passHead {m0 m m' : Mem} {buff : List Byte} {fsize : BitVec 32} {s_addr a : ℕ}
    {readTime : Bool} (ha : updataAppAddr ≤ s_addr) (hm : Kept m0 m)
    (h : headResult m (if readTime then Update.fileHead m buff fsize s_addr
      else some (some (m, s_addr))) = some (some a, m')) : Kept m0 m' ∧ updataAppAddr ≤ a := by
  cases readTime with
  | false =>
    cases h
    exact ⟨hm, ha⟩
  | true =>
    rw [if_pos rfl] at h
    cases hhead : Update.fileHead m buff fsize s_addr with
    | none =>
      rw [hhead] at h
      cases h
    | some r =>
      rw [hhead] at h
      cases r with
      | none => cases h
      | some p =>
        cases h
        obtain ⟨hk, ha'⟩ : Kept m p.1 ∧ p.2 = s_addr + 4 := kept_of_head hhead ha
        exact ⟨hm.trans hk, by omega⟩

theorem updataLoop_refines (isDeviceConnected : ℕ → Bool) (fsize : BitVec 32) (m0 : Mem)
    {buff rest : List Byte} {s_addr i : ℕ} {readTime : Bool} (ha : updataAppAddr ≤ s_addr)
    {m : Mem} (hm : Kept m0 m) (power : Option ℕ) :
    (updataLoop isDeviceConnected fsize buff rest s_addr i readTime m power).Follows
      ((Update.updataLoop isDeviceConnected fsize m buff rest s_addr i readTime))
      (Kept m0) power := by
  induction hn : rest.length using Nat.strong_induction_on
    generalizing buff rest s_addr i readTime m power with
  | _ n ih =>
    subst hn
    rw [updataLoop, Update.updataLoop]
    by_cases hconn : ¬ isDeviceConnected i = true
    · rw [if_pos hconn, if_pos hconn]
      exact ⟨rfl, id⟩
    rw [if_neg hconn, if_neg hconn]
    dsimp only
    generalize hbuff : (f_read buff rest).1 = buff'
    refine (passHead_follows buff' fsize readTime ha hm power).bind (g := fun r =>
      match r.1 with
      | none => some (RtErr.rtError, r.2)
      | some a => (blockResult r.2 a (buff'.take (min usbBufLen rest.length))
          (min usbBufLen rest.length)).bind fun m =>
        if _ : min usbBufLen rest.length < usbBufLen then some (Update.checkFlashFile m, m)
        else Update.updataLoop isDeviceConnected fsize m buff' (f_read buff rest).2
          (a + min usbBufLen rest.length) (i + 1) false) (fun head t power' hhead => ?_) ?_
    · cases head with
      | none => exact ⟨rfl, id⟩
      | some a =>
        obtain ⟨ht, ha'⟩ := kept_of_passHead ha hm hhead
        have hblock := (writeBlock_refines (buff'.take (min usbBufLen rest.length))
          (min usbBufLen rest.length) ha' t power').mono rfl fun u hu => ht.trans hu
        refine hblock.bind (g := fun r =>
          if _ : min usbBufLen rest.length < usbBufLen then
            some (Update.checkFlashFile r.2, r.2)
          else Update.updataLoop isDeviceConnected fsize r.2 buff' (f_read buff rest).2
            (a + min usbBufLen rest.length) (i + 1) false) (fun _ u power'' hu => ?_) ?_
        · obtain ⟨v, hv, hvu⟩ := Option.map_eq_some_iff.1 hu
          cases hvu
          by_cases hlast : min usbBufLen rest.length < usbBufLen
          · rw [dif_pos hlast, dif_pos hlast]
            exact ⟨rfl, id⟩
          · rw [dif_neg hlast, dif_neg hlast]
            refine ih _ ?_ (by omega) (ht.trans (kept_of_block hv ha')) power'' rfl
            simp only [f_read, List.length_drop]
            unfold usbBufLen at *
            omega
        · dsimp only
          cases blockResult t a (buff'.take (min usbBufLen rest.length))
            (min usbBufLen rest.length) <;> rfl
    · cases (if readTime then Update.fileHead m buff' fsize s_addr
          else some (some (m, s_addr))) with
      | none => rfl
      | some head =>
        cases head with
        | none => rfl
        | some p => rfl

/-- `updataSet` ends as in `Abox.Update.Usb`, and a power failure in it leaves all in front of
    the staging area as it was. -/
theorem updataSet_refines (isDeviceConnected : ℕ → Bool) (file : List Byte) :
    Refines (updataSet isDeviceConnected file)
      (fun m => Update.updataSet isDeviceConnected m file) Kept := by
  intro m power
  beta_reduce
  unfold updataSet Update.updataSet
  split_ifs
  · exact ⟨rfl, id⟩
  · exact updataLoop_refines isDeviceConnected _ m le_rfl (Kept.refl m) power

/-! ## By Ymodem -/

/-- The calls of `_rym_tof` for the packets of a program, from `fileAddr` on. -/
def rymTofs (fileAddr : BitVec 32) : List (List Byte) → Prog Mem (BitVec 32)
  | [] => pure fileAddr
  | data :: datas => do
    let _ ← writeByteToFlash fileAddr.toNat data
    rymTofs (fileAddr + BitVec.ofNat 32 data.length) datas

/-- The case `FILE_UPDATA` of `_rym_end` (lines 101–117); the result says whether the program
    is good. -/
def endUpdata (flen fileAddr : BitVec 32) (data : List Byte) : Prog Mem Bool := do
  let _ ← writeByteToFlash fileAddr.toNat data
  let _ ← writeByteToFlash updataAppAddr (Layout.word.encode flen)
  let ret ← Prog.get Update.checkFlashFile
  if ret = .rtEok then pure true
  else do
    clearSaveDataSector
    pure false

/-- A program that comes by Ymodem: the packets, and the last one if it comes. -/
def ymodem (flen : BitVec 32) (datas : List (List Byte)) (last : Option (List Byte)) :
    Prog Mem Bool := do
  let fileAddr ← rymTofs (BitVec.ofNat 32 (updataAppAddr + 4)) datas
  match last with
  | none => pure false
  | some data => endUpdata flen fileAddr data

/-- The calls of `_rym_tof`, with their buffers and lengths. -/
def tofs (u : Ymodem.ToFile) : List (List Byte × ℕ) → Option Ymodem.ToFile
  | [] => some u
  | (buf, len) :: calls => (Ymodem.rymTof u buf len).bind fun r => tofs r.2 calls

/-- A write behind the length does not change it. -/
theorem length_of_written {m m' : Mem} {writeAddr : ℕ} {data : List Byte} {e : RtErr}
    (h : Flash.writeByteToFlash m writeAddr data = some (e, m'))
    (ha : updataAppAddr + 4 ≤ writeAddr) :
    STMFLASH_ReadWord m' updataAppAddr = STMFLASH_ReadWord m updataAppAddr := by
  rw [(writeByteToFlash_some h (by omega)).1]
  exact readWord_congr fun k _ h2 => programs_of_disjoint (Or.inl (by omega))

/-- What the calls for the packets leave. -/
theorem tofs_some {u u' : Ymodem.ToFile} {calls : List (List Byte × ℕ)}
    (htype : u.fileType = .fileUpdata) (ha : updataAppAddr + 4 ≤ u.fileAddr.toNat)
    (h : tofs u calls = some u') :
    u'.fileType = .fileUpdata ∧ u'.flen = u.flen ∧ updataAppAddr + 4 ≤ u'.fileAddr.toNat ∧
      Kept u.sys.flash u'.sys.flash ∧
      STMFLASH_ReadWord u'.sys.flash updataAppAddr =
        STMFLASH_ReadWord u.sys.flash updataAppAddr := by
  induction calls generalizing u with
  | nil =>
    cases h
    exact ⟨htype, rfl, ha, Kept.refl _, rfl⟩
  | cons c calls ih =>
    obtain ⟨buf, len⟩ := c
    rw [tofs, Ymodem.rymTof] at h
    dsimp only at h
    rw [if_pos htype] at h
    cases hw : Flash.writeByteToFlash u.sys.flash u.fileAddr.toNat (readN buf len) with
    | none =>
      rw [hw] at h
      cases h
    | some r =>
      rw [hw] at h
      have hnext := behind_of_write ha hw
      rw [length_readN] at hnext
      have hend := ih (u := { u with
        temp := Ymodem.toTemp buf len
        fileAddr := u.fileAddr + BitVec.ofNat 32 len
        sys := { u.sys with flash := r.2 } }) htype (by dsimp only; omega) h
      obtain ⟨h1, h2, h3, h4, h5⟩ := hend
      exact ⟨h1, h2, h3, (kept_of_written hw (by omega)).trans h4,
        h5.trans (length_of_written hw ha)⟩

theorem rymTofs_refines (m0 : Mem) {u : Ymodem.ToFile} (htype : u.fileType = .fileUpdata)
    (ha : updataAppAddr + 4 ≤ u.fileAddr.toNat) (hm : Kept m0 u.sys.flash)
    (calls : List (List Byte × ℕ)) (power : Option ℕ) :
    (rymTofs u.fileAddr (calls.map fun c => readN c.1 c.2) u.sys.flash power).Follows
      ((tofs u calls).map fun u => (u.fileAddr, u.sys.flash)) (Kept m0) power := by
  induction calls generalizing u power with
  | nil => exact ⟨rfl, id⟩
  | cons c calls ih =>
    obtain ⟨buf, len⟩ := c
    rw [List.map_cons, rymTofs, tofs, Ymodem.rymTof]
    dsimp only
    rw [if_pos htype]
    have hwrite := (writeByteToFlash_refines u.fileAddr.toNat (readN buf len) u.sys.flash
      power).mono rfl fun t ht => hm.trans (kept_of_part ht (by omega))
    refine hwrite.bind (g := fun r => (tofs { u with
        temp := Ymodem.toTemp buf len
        fileAddr := u.fileAddr + BitVec.ofNat 32 len
        sys := { u.sys with flash := r.2 } } calls).map fun u => (u.fileAddr, u.sys.flash))
      (fun e t power' hw => ?_) ?_
    · have hnext := behind_of_write ha hw
      have hkept := hm.trans (kept_of_written hw (by omega))
      rw [length_readN] at hnext ⊢
      exact ih (u := { u with
        temp := Ymodem.toTemp buf len
        fileAddr := u.fileAddr + BitVec.ofNat 32 len
        sys := { u.sys with flash := t } }) htype (by dsimp only; omega) hkept power'
    · beta_reduce
      cases Flash.writeByteToFlash u.sys.flash u.fileAddr.toNat (readN buf len) <;> rfl

/-- What `endUpdata` makes of the flash behind the last packet. -/
def endResult (flen : BitVec 32) (m : Mem) : Bool × Mem :=
  let m := programs m updataAppAddr (Layout.word.encode flen)
  if Update.checkFlashFile m = .rtEok then (true, m) else (false, Update.clearSaveDataSector m)

theorem endUpdata_refines {m0 m : Mem} {fileAddr : BitVec 32} (flen : BitVec 32)
    (ha : updataAppAddr + 4 ≤ fileAddr.toNat) (hm : Kept m0 m) (data : List Byte)
    (power : Option ℕ) :
    (endUpdata flen fileAddr data m power).Follows
      ((Flash.writeByteToFlash m fileAddr.toNat data).map fun r => endResult flen r.2) (Kept m0)
      power := by
  unfold endUpdata
  have hdata := (writeByteToFlash_refines fileAddr.toNat data m power).mono rfl
    fun t ht => hm.trans (kept_of_part ht (by omega))
  refine hdata.bind (g := fun r => some (endResult flen r.2)) (fun _ t power' ht => ?_) ?_
  · have hkept := hm.trans (kept_of_written ht (by omega))
    have hlength := (writeByteToFlash_refines updataAppAddr (Layout.word.encode flen) t
      power').mono rfl fun u hu => hkept.trans (kept_of_part hu le_rfl)
    refine hlength.bind (g := fun r => some (if Update.checkFlashFile r.2 = .rtEok then (true, r.2)
      else (false, Update.clearSaveDataSector r.2))) (fun _ u power'' hu => ?_) ?_
    · have hkept' := hkept.trans (kept_of_written hu le_rfl)
      rw [Prog.get_bind]
      split_ifs
      · exact ⟨rfl, id⟩
      · have hclear := (clearSaveDataSector_refines u power'').mono rfl
          fun v hv => hkept'.trans (kept_of_cleared hv)
        exact hclear.bind (g := fun r => some (false, r.2)) (fun _ _ _ _ => ⟨rfl, id⟩) rfl
    · beta_reduce
      rw [writeLength]
      rfl
  · beta_reduce
    cases Flash.writeByteToFlash m fileAddr.toNat data <;> rfl

/-- `endResult` is what the callback for the end of a program does. -/
theorem endUpdata_eq {u : Ymodem.ToFile} (htype : u.fileType = .fileUpdata) (buf : List Byte)
    (len : ℕ) : (Ymodem.endUpdata u buf len).map (fun u' =>
        (decide (u'.fileType = .fileCheckOk), u'.sys.flash)) =
      (Flash.writeByteToFlash u.sys.flash u.fileAddr.toNat (readN buf len)).map
        fun r => endResult u.flen r.2 := by
  unfold Ymodem.endUpdata
  cases Flash.writeByteToFlash u.sys.flash u.fileAddr.toNat (readN buf len) with
  | none => rfl
  | some r =>
    dsimp only
    rw [writeLength, Option.map_some]
    unfold endResult
    dsimp only
    split_ifs
    · rfl
    · rw [Option.map_some, htype]
      rfl

/-- The callbacks of a transfer of a program, behind the first packet: those for the packets,
    and the one for the end, if it comes. -/
def transfer (u : Ymodem.ToFile) (calls : List (List Byte × ℕ))
    (last : Option (List Byte × ℕ)) : Option Ymodem.ToFile :=
  (tofs u calls).bind fun u =>
    match last with
    | none => some u
    | some (buf, len) => Ymodem.endUpdata u buf len

theorem kept_endResult (flen : BitVec 32) (m : Mem) : Kept m (endResult flen m).2 := by
  have hlength : Kept m (programs m updataAppAddr (Layout.word.encode flen)) :=
    kept_of_written (writeLength m flen) le_rfl
  unfold endResult
  dsimp only
  split_ifs
  · exact hlength
  · exact hlength.trans (kept_of_erased (someErased_clearSaveDataSector _))

/-- Without a good program the length is erased. -/
theorem length_endResult {flen : BitVec 32} {m : Mem} (h : (endResult flen m).1 = false) :
    STMFLASH_ReadWord (endResult flen m).2 updataAppAddr = 0xffffffff := by
  unfold endResult at h ⊢
  dsimp only at h ⊢
  split_ifs at h ⊢
  exact readWord_of_erased ((erased_clearSaveDataSector _).mono le_rfl (by omega))

/-- What a transfer leaves. -/
theorem transfer_some {u u' : Ymodem.ToFile} {calls : List (List Byte × ℕ)}
    {last : Option (List Byte × ℕ)} (htype : u.fileType = .fileUpdata)
    (ha : updataAppAddr + 4 ≤ u.fileAddr.toNat) (h : transfer u calls last = some u') :
    Kept u.sys.flash u'.sys.flash ∧ (u'.fileType = .fileCheckOk ∨
      STMFLASH_ReadWord u'.sys.flash updataAppAddr = 0xffffffff ∨
      STMFLASH_ReadWord u'.sys.flash updataAppAddr =
        STMFLASH_ReadWord u.sys.flash updataAppAddr) := by
  unfold transfer at h
  cases htofs : tofs u calls with
  | none =>
    rw [htofs] at h
    cases h
  | some v =>
    rw [htofs] at h
    obtain ⟨htype', -, -, hkept, hlength⟩ := tofs_some htype ha htofs
    cases last with
    | none =>
      cases h
      exact ⟨hkept, Or.inr (Or.inr hlength)⟩
    | some c =>
      have hend := endUpdata_eq htype' c.1 c.2
      rw [show Ymodem.endUpdata v c.1 c.2 = some u' from h] at hend
      obtain ⟨r, hr, hpair⟩ := Option.map_eq_some_iff.1 hend.symm
      have htofs' := tofs_some htype ha htofs
      have hflash : (endResult v.flen r.2).2 = u'.sys.flash := congrArg Prod.snd hpair
      have hok : (endResult v.flen r.2).1 = decide (u'.fileType = .fileCheckOk) :=
        congrArg Prod.fst hpair
      refine ⟨?_, ?_⟩
      · rw [← hflash]
        exact (hkept.trans (kept_of_written hr (by omega))).trans (kept_endResult v.flen r.2)
      · by_cases hcheck : u'.fileType = .fileCheckOk
        · exact Or.inl hcheck
        · right
          left
          rw [← hflash]
          exact length_endResult (by rw [hok]; exact decide_eq_false hcheck)

/-- A program by Ymodem is what the callbacks do, and a power failure in it leaves all in front
    of the staging area as it was. -/
theorem ymodem_refines {u : Ymodem.ToFile} (htype : u.fileType = .fileUpdata)
    (ha : u.fileAddr = BitVec.ofNat 32 (updataAppAddr + 4)) (calls : List (List Byte × ℕ))
    (last : Option (List Byte × ℕ)) (power : Option ℕ) :
    (ymodem u.flen (calls.map fun c => readN c.1 c.2) (last.map fun c => readN c.1 c.2)
      u.sys.flash power).Follows
      ((transfer u calls last).map fun u =>
        (decide (u.fileType = .fileCheckOk), u.sys.flash)) (Kept u.sys.flash) power := by
  unfold ymodem
  have haddr : updataAppAddr + 4 ≤ u.fileAddr.toNat := by
    rw [ha]
    decide
  rw [← ha]
  refine (rymTofs_refines u.sys.flash htype haddr (Kept.refl _) calls power).bind
    (g := fun r => match last with
      | none => some (false, r.2)
      | some c => (Flash.writeByteToFlash r.2 r.1.toNat (readN c.1 c.2)).map fun r =>
        endResult u.flen r.2) (fun fileAddr t power' ht => ?_) ?_
  · obtain ⟨u', hu', hpair⟩ := Option.map_eq_some_iff.1 ht
    cases hpair
    obtain ⟨-, -, hnext, hkept, -⟩ := tofs_some htype haddr hu'
    cases last with
    | none => exact ⟨rfl, id⟩
    | some c => exact endUpdata_refines u.flen hnext hkept _ power'
  · unfold transfer
    cases htofs : tofs u calls with
    | none => rfl
    | some u' =>
      obtain ⟨htype', hflen, -⟩ := tofs_some htype haddr htofs
      cases last with
      | none =>
        show some (false, u'.sys.flash) = some (decide (u'.fileType = .fileCheckOk), u'.sys.flash)
        rw [htype']
        rfl
      | some c =>
        show _ = (Ymodem.endUpdata u' c.1 c.2).map _
        rw [endUpdata_eq htype', hflen]
        rfl

end Abox.Device
