import Abox.Update.Staging
import Abox.Ymodem.Tofile

/-!
# What a program received by Ymodem leaves in the staging area

The receiver does not look at the numbers of the packets and does not erase the
staging area: a packet that comes again is staged again, and everything is
programmed over what is there.

* `feed_appended`: the packets of a program are programmed one behind the other.
* `image_iff`: exactly when an accepted program is the one that was sent.
-/

namespace Abox.Ymodem

open Nor Flash Config Update

/-! ## Specification -/

namespace Sending

/-- The bytes of the blocks in the order in which they come in, repeated ones
    included. -/
def written (s : Sending) : List Byte :=
  s.blocks.flatMap fun b => (List.replicate (b.again + 1) b.data).flatten

/-- The staging area holds the length of the file, and behind it that many bytes
    of the blocks. -/
def ImageStaged (s : Sending) (m : Mem) : Prop :=
  STMFLASH_ReadWord m updataAppAddr = BitVec.ofNat 32 s.file.length ∧
    STMFLASH_ReadMoreByte m (updataAppAddr + 4) s.file.length = s.data.take s.file.length

/-- The file can be staged over `m`: its length has no bit that is cleared in the
    length that is there, and each of its bytes is what the byte that comes in at
    its place leaves of the one that is there. -/
structure Stageable (s : Sending) (m : Mem) : Prop where
  length : STMFLASH_ReadWord m updataAppAddr &&& BitVec.ofNat 32 s.file.length =
    BitVec.ofNat 32 s.file.length
  image : ∀ i < s.file.length,
    m (updataAppAddr + 4 + i) &&& s.written.getD i 0 = s.file.getD i 0

theorem take_data (s : Sending) : s.data.take s.file.length = s.file :=
  (List.prefix_iff_eq_take.1 s.file_prefix).symm

end Sending

/-! ## The packets of a program -/

/-- `u'` is `u` with the bytes `bs` programmed at `fileAddr`. -/
structure Appended (u u' : ToFile) (bs : List Byte) : Prop where
  fileType : u'.fileType = .fileUpdata
  flen : u'.flen = u.flen
  fileAddr : u'.fileAddr.toNat = u.fileAddr.toNat + bs.length
  flash : u'.sys.flash = programs u.sys.flash u.fileAddr.toNat bs
  fits : u'.fileAddr.toNat ≤ 0x080FFFFF

/-- `fileAddr` is behind the length in the staging area. -/
def ToFile.InStaging (u : ToFile) : Prop :=
  updataAppAddr + 4 ≤ u.fileAddr.toNat ∧ u.fileAddr.toNat ≤ 0x080FFFFF

theorem Appended.inStaging {u u' : ToFile} {bs : List Byte} (h : Appended u u' bs)
    (hu : u.InStaging) : u'.InStaging := by
  have := h.fileAddr
  exact ⟨by have := hu.1; omega, h.fits⟩

theorem Appended.trans {u v w : ToFile} {bs cs : List Byte} (h : Appended u v bs)
    (h' : Appended v w cs) : Appended u w (bs ++ cs) where
  fileType := h'.fileType
  flen := h'.flen.trans h.flen
  fileAddr := by rw [h'.fileAddr, h.fileAddr, List.length_append, Nat.add_assoc]
  flash := by rw [h'.flash, h.flash, h.fileAddr, programs_append]
  fits := h'.fits

/-- A write in the staging area that returns. -/
theorem writeByteToFlash_inStaging {u : ToFile} (hu : u.InStaging) {bs : List Byte} {r : RtErr}
    {m : Mem} (h : writeByteToFlash u.sys.flash u.fileAddr.toNat bs = some (r, m)) :
    m = programs u.sys.flash u.fileAddr.toNat bs ∧ u.fileAddr.toNat + bs.length ≤ 0x080FFFFF := by
  have hbase : updataAppAddr = 0x080A0000 := rfl
  have hne : u.fileAddr.toNat ≠ 0 := by
    have := hu.1
    omega
  obtain ⟨hm, hflash⟩ := writeByteToFlash_some h hne
  exact ⟨hm, le_of_isFlashAddress (by have := hu.1; omega) hu.2 hflash⟩

/-- One packet of a program. -/
theorem rymTof_appended {u u' : ToFile} (htype : u.fileType = .fileUpdata) (hu : u.InStaging)
    {p : Packet} {buf : List Byte} {code : Byte}
    (h : rymTof u (p.payload buf) p.data.length = some (code, u')) : Appended u u' p.data := by
  unfold rymTof at h
  rw [p.readN_payload_data buf le_rfl, List.take_length] at h
  simp only [if_pos htype] at h
  cases hw : writeByteToFlash u.sys.flash u.fileAddr.toNat p.data with
  | none =>
    rw [hw] at h
    cases h
  | some r =>
    obtain ⟨r, m⟩ := r
    rw [hw] at h
    cases h
    obtain ⟨hm, hfits⟩ := writeByteToFlash_inStaging hu hw
    have haddr : (u.fileAddr + BitVec.ofNat 32 p.data.length).toNat =
        u.fileAddr.toNat + p.data.length := by
      rw [BitVec.toNat_add, BitVec.toNat_ofNat]
      omega
    exact ⟨htype, rfl, haddr, hm, by rw [haddr]; exact hfits⟩

/-- The packets of a program are programmed one behind the other. -/
theorem feed_appended {sn : ServerNetInformation} {u u' : ToFile} {ps : List Packet}
    {buf buf' : List Byte} (htype : u.fileType = .fileUpdata) (hu : u.InStaging)
    (h : feed (callbacks sn) buf u ps = some (buf', u')) :
    Appended u u' (ps.flatMap Packet.data) := by
  induction ps generalizing u buf with
  | nil =>
    cases h
    exact ⟨htype, rfl, rfl, rfl, hu.2⟩
  | cons p ps ih =>
    rw [feed] at h
    cases hp : (callbacks sn).onData u (p.payload buf) p.data.length with
    | none =>
      rw [hp] at h
      cases h
    | some r =>
      obtain ⟨code, v⟩ := r
      rw [hp] at h
      have hv := rymTof_appended htype hu hp
      exact hv.trans (ih hv.fileType (hv.inStaging hu) h)

theorem flatMap_data_packets (n : ℕ) (bs : List Block) :
    (packets n bs).flatMap Packet.data =
      bs.flatMap fun b => (List.replicate (b.again + 1) b.data).flatten := by
  induction bs generalizing n with
  | nil => rfl
  | cons b bs ih =>
    rw [packets, List.flatMap_append, ih, List.flatMap_cons, List.flatMap_replicate]

/-! ## The end -/

/-- A program that is accepted: the last buffer and then the length have been
    programmed. -/
theorem endUpdata_ok {u u' : ToFile} {buf : List Byte} {len : ℕ}
    (htype : u.fileType = .fileUpdata) (hu : u.InStaging) (h : endUpdata u buf len = some u')
    (hok : u'.fileType = .fileCheckOk) :
    u'.sys.flash = programs (programs u.sys.flash u.fileAddr.toNat (readN buf len)) updataAppAddr
      (Layout.word.encode u.flen) := by
  unfold endUpdata at h
  cases hw : writeByteToFlash u.sys.flash u.fileAddr.toNat (readN buf len) with
  | none =>
    rw [hw] at h
    cases h
  | some r =>
    obtain ⟨r, m⟩ := r
    obtain ⟨rfl, -⟩ := writeByteToFlash_inStaging hu hw
    rw [hw] at h
    cases hl : writeByteToFlash (programs u.sys.flash u.fileAddr.toNat (readN buf len))
        updataAppAddr (Layout.word.encode u.flen) with
    | none =>
      simp only [hl] at h
      cases h
    | some r =>
      obtain ⟨r, m⟩ := r
      obtain ⟨rfl, -⟩ := writeByteToFlash_some hl (by decide)
      simp only [hl] at h
      split_ifs at h
      · cases h
        rfl
      · cases h
        exact absurd (htype.symm.trans hok) (by decide)

theorem rymEnd_ok {sn : ServerNetInformation} {u : ToFile} {r : Byte × ToFile} {buf : List Byte}
    {len : ℕ} (htype : u.fileType = .fileUpdata) (hu : u.InStaging)
    (h : rymEnd sn u buf len = some r) (hok : r.2.fileType = .fileCheckOk) :
    r.2.sys.flash = programs (programs u.sys.flash u.fileAddr.toNat (readN buf len)) updataAppAddr
      (Layout.word.encode u.flen) := by
  have hend : rymEnd sn u buf len = (endUpdata { u with temp := toTemp buf 1024 } buf len).map
      fun cctx => (rymCodeAck, cctx) := by
    unfold rymEnd
    dsimp only
    rw [htype]
  obtain ⟨v, hv, rfl⟩ := Option.map_eq_some_iff.1 (hend.symm.trans h)
  exact endUpdata_ok (u := { u with temp := toTemp buf 1024 }) htype ⟨hu.1, hu.2⟩ hv hok

/-- A transfer of a file, as the callbacks see it. -/
theorem session_of_run {s : Sending} {sn : ServerNetInformation} {buf : List Byte} {u : ToFile}
    {err : RymErr} {ctx : RymCtx ToFile}
    (h : rymWriteToFile sn s.sender.dev buf u = some (err, ctx)) :
    session (callbacks sn) s.sender buf u = some ctx.user := by
  rw [← doRecv_session (callbacks_acks sn) (fun _ _ _ _ _ hb => by cases hb; rfl) s.waits_lt]
  exact congrArg (Option.map _) h

/-- What an accepted program leaves in the flash: the blocks, repeated ones
    included, the last buffer behind them, and the length. -/
theorem flash_of_ok {s : Sending} (hname : s.isNetFile = false) {sn : ServerNetInformation}
    {buf : List Byte} {u u' : ToFile} (h : session (callbacks sn) s.sender buf u = some u')
    (hok : u'.fileType = .fileCheckOk) :
    ∃ last, u'.sys.flash = programs (programs u.sys.flash (updataAppAddr + 4)
        (s.written ++ last)) updataAppAddr (Layout.word.encode s.flen) ∧
      updataAppAddr + 4 + s.written.length ≤ 0x080FFFFF := by
  obtain ⟨temp, hbegin⟩ := rymBg_header s u buf
  unfold session at h
  rw [s.sender_header, s.sender_blocks,
    show (callbacks sn).onBegin u (s.header.payload buf) 128 = _ from hbegin,
    if_neg (by simp [hname])] at h
  generalize hv : ({ u with
    temp := temp
    flen := s.flen
    fileAddr := BitVec.ofNat 32 (updataAppAddr + 4)
    fileType := .fileUpdata } : ToFile) = v at h
  have haddr : v.fileAddr.toNat = updataAppAddr + 4 := by
    subst hv
    show (BitVec.ofNat 32 (updataAppAddr + 4)).toNat = updataAppAddr + 4
    decide
  have hin : v.InStaging := ⟨le_of_eq haddr.symm, by rw [haddr]; decide⟩
  have htype : v.fileType = .fileUpdata := by
    subst hv
    rfl
  cases hfeed : feed (callbacks sn) (s.header.received buf) v (packets 1 s.blocks) with
  | none =>
    simp only [hfeed] at h
    cases h
  | some r =>
    obtain ⟨buf', w⟩ := r
    simp only [hfeed] at h
    have hw := feed_appended htype hin hfeed
    rw [flatMap_data_packets] at hw
    change Appended v w s.written at hw
    obtain ⟨r, hend, rfl⟩ := Option.map_eq_some_iff.1 h
    have hflash := rymEnd_ok hw.fileType (hw.inStaging hin) hend hok
    refine ⟨readN (buf'.drop 3) 128, ?_, ?_⟩
    · rw [hflash, hw.flash, hw.fileAddr, ← programs_append, hw.flen, haddr]
      subst hv
      rfl
    · have := hw.fits
      rwa [hw.fileAddr, haddr] at this

/-! ## The image -/

/-- The bytes of the file, as they come in at first. -/
theorem length_file_le_written (s : Sending) : s.file.length ≤ s.written.length := by
  have hle : s.file.length ≤ s.data.length := s.file_prefix.length_le
  have hwritten : s.data.length ≤ s.written.length := by
    unfold Sending.data Sending.written
    rw [List.length_flatMap, List.length_flatMap]
    apply List.sum_le_sum
    intro b _
    rw [List.length_flatten, List.map_replicate, List.sum_replicate, smul_eq_mul]
    exact Nat.le_mul_of_pos_left _ (Nat.succ_pos _)
  exact hle.trans hwritten

/-- What is in the staging area after an accepted program. -/
theorem staged_of_ok {s : Sending} {m m' : Mem} {last : List Byte}
    (h : m' = programs (programs m (updataAppAddr + 4) (s.written ++ last)) updataAppAddr
      (Layout.word.encode s.flen)) :
    STMFLASH_ReadWord m' updataAppAddr = STMFLASH_ReadWord m updataAppAddr &&& s.flen ∧
      ∀ i < s.file.length,
        m' (updataAppAddr + 4 + i) = m (updataAppAddr + 4 + i) &&& s.written.getD i 0 := by
  have hlen : (Layout.word.encode s.flen).length = 4 := Layout.word.length_encode s.flen
  subst h
  constructor
  · rw [readWord_programs, readWord_congr fun k _ hk => programs_of_disjoint (Or.inl hk)]
  · intro i hi
    have hw : i < s.written.length := hi.trans_le (length_file_le_written s)
    have hlt : i < (s.written ++ last).length := by
      rw [List.length_append]
      omega
    rw [programs_of_disjoint (by omega), programs_of_lt hlt, List.getElem_append_left hw,
      List.getD_eq_getElem _ _ hw]

/-- An accepted program is the one that was sent exactly if it could be staged
    over what was there. -/
theorem image_iff {s : Sending} (hname : s.isNetFile = false) {sn : ServerNetInformation}
    {buf : List Byte} {u : ToFile} {err : RymErr} {ctx : RymCtx ToFile}
    (h : rymWriteToFile sn s.sender.dev buf u = some (err, ctx))
    (hok : ctx.user.fileType = .fileCheckOk) :
    s.ImageStaged ctx.user.sys.flash ↔ s.Stageable u.sys.flash := by
  obtain ⟨last, hflash, hfits⟩ := flash_of_ok hname (session_of_run h) hok
  obtain ⟨hword, himage⟩ := staged_of_ok hflash
  have hflen : s.flen = BitVec.ofNat 32 s.file.length := by
    have hle := length_file_le_written s
    have hmax : ((s.file.length : ℕ) : ℤ) ≤ longMax := by
      unfold longMax
      omega
    unfold Sending.flen
    rw [min_eq_right hmax, BitVec.ofInt_natCast]
  have hread : STMFLASH_ReadMoreByte ctx.user.sys.flash (updataAppAddr + 4) s.file.length =
      s.data.take s.file.length ↔ ∀ i < s.file.length,
        u.sys.flash (updataAppAddr + 4 + i) &&& s.written.getD i 0 = s.file.getD i 0 := by
    rw [s.take_data]
    refine read_eq_iff.trans (forall₂_congr fun i hi => ?_)
    rw [himage i hi, List.getD_eq_getElem _ _ hi]
  constructor
  · rintro ⟨h1, h2⟩
    exact ⟨by rw [← hflen, ← hword, h1, hflen], hread.1 h2⟩
  · rintro ⟨h1, h2⟩
    exact ⟨by rw [hword, hflen, h1], hread.2 h2⟩

/-- Over an erased area, blocks that come in once stage the file. -/
theorem stageable_of_erased {s : Sending} {m : Mem}
    (herased : ∀ k, updataAppAddr ≤ k → k < updataAppAddr + 4 + s.file.length → m k = 0xFF)
    (honce : ∀ b ∈ s.blocks, b.again = 0) : s.Stageable m := by
  have hwritten : s.written = s.data := by
    unfold Sending.written Sending.data
    apply List.flatMap_congr
    intro b hb
    rw [honce b hb]
    exact List.append_nil _
  constructor
  · rw [readWord_of_erased fun k h1 h2 => herased k h1 (by omega)]
    exact BitVec.allOnes_and
  · intro i hi
    have hdata : s.data.getD i 0 = s.file.getD i 0 := by
      conv_rhs => rw [← s.take_data]
      have hlt : i < s.data.length := hi.trans_le s.file_prefix.length_le
      rw [List.getD_eq_getElem _ _ hlt,
        List.getD_eq_getElem _ _ (by rw [s.take_data]; exact hi), List.getElem_take]
    rw [herased _ (by omega) (by omega), and_erased, hwritten, hdata]

/-! ## Two transfers -/

theorem length_exampleBlock {file : List Byte} (h : file.length ≤ 128) :
    (file ++ List.replicate (128 - file.length) 0x1A).length = 128 ∨
      (file ++ List.replicate (128 - file.length) 0x1A).length = 1024 := by
  left
  simp
  omega

theorem exampleName_ne_zero : ∀ b ∈ [(0x61 : Byte)], b ≠ 0 := by decide

theorem length_exampleHeader {file : List Byte} (h : (decimal file.length).length ≤ 2) :
    (headerData [0x61] file.length 0
      (List.replicate (125 - (decimal file.length).length) 0)).length = 128 := by
  simp [headerData]
  omega

/-- A short file, sent in one block under the name `a`. -/
def exampleSending (file : List Byte) (h1 : (decimal file.length).length ≤ 2)
    (h2 : file.length ≤ 128) : Sending where
  name := [0x61]
  file := file
  stop := 0
  fill := List.replicate (125 - (decimal file.length).length) 0
  waits := 0
  headerAgain := 0
  blocks := [⟨file ++ List.replicate (128 - file.length) 0x1A, 0, length_exampleBlock h2⟩]
  tail := []
  name_ne_zero := exampleName_ne_zero
  stop_not_digit := isDigit_zero
  length_header := length_exampleHeader h1
  file_prefix := by simp
  waits_lt := handshakeTimeout_pos

/-- The program `FF FF FF FF`. -/
def exampleFour : Sending :=
  exampleSending [0xFF, 0xFF, 0xFF, 0xFF] (by decide +kernel) (by decide)

/-- The program `FF FF FF FF` with eight zeros behind it. -/
def exampleTwelve : Sending :=
  exampleSending ([0xFF, 0xFF, 0xFF, 0xFF] ++ List.replicate 8 0) (by decide +kernel) (by decide)

/-- The state at first, with the flash `m`. -/
def exampleStart (m : Mem) : ToFile := ⟨[], 0, 0, .fileUpdata, ⟨m, 0, none⟩⟩

/-- The transfer `s` into the flash `m`. -/
def exampleRun (s : Sending) (m : Mem) : Option (RymErr × RymCtx ToFile) :=
  rymWriteToFile ServerNetInformation.zero s.sender.dev (List.replicate 1029 0) (exampleStart m)

/-- `fileType` and the staged length when the callbacks are through. -/
def report (s : Sending) (m : Mem) : Option (FileType × BitVec 32) :=
  (session (callbacks ServerNetInformation.zero) s.sender (List.replicate 1029 0)
    (exampleStart m)).map fun u => (u.fileType, STMFLASH_ReadWord u.sys.flash updataAppAddr)

theorem exampleRun_of_report {s : Sending} {m : Mem} {t : FileType} {w : BitVec 32}
    (h : report s m = some (t, w)) : ∃ err ctx, exampleRun s m = some (err, ctx) ∧
      ctx.user.fileType = t ∧ STMFLASH_ReadWord ctx.user.sys.flash updataAppAddr = w := by
  unfold report at h
  rw [← doRecv_session (callbacks_acks _) (fun _ _ _ _ _ hb => by cases hb; rfl) s.waits_lt,
    Option.map_map] at h
  obtain ⟨⟨err, ctx⟩, hrun, heq⟩ := Option.map_eq_some_iff.1 h
  exact ⟨err, ctx, hrun, congrArg Prod.fst heq, congrArg Prod.snd heq⟩

/-- Over an erased area, the program is staged. -/
theorem image_four : ∃ err ctx, exampleRun exampleFour (fun _ => 0xFF) = some (err, ctx) ∧
    ctx.user.fileType = .fileCheckOk ∧ exampleFour.ImageStaged ctx.user.sys.flash := by
  obtain ⟨err, ctx, hrun, hok, -⟩ := exampleRun_of_report
    (show report exampleFour (fun _ => 0xFF) = some (.fileCheckOk, 4) by decide +kernel)
  refine ⟨err, ctx, hrun, hok, (image_iff (by decide +kernel) hrun hok).2 ?_⟩
  apply stageable_of_erased
  · exact fun _ _ _ => rfl
  · decide

/-- A program of twelve bytes over a complete one of four: the four bytes pass
    the check once more, and the staged length is still 4. -/
theorem earlier_length_stays :
    ∃ err ctx, exampleRun exampleTwelve earlierImage = some (err, ctx) ∧
      ctx.user.fileType = .fileCheckOk ∧ ¬ exampleTwelve.ImageStaged ctx.user.sys.flash := by
  obtain ⟨err, ctx, hrun, hok, hword⟩ := exampleRun_of_report
    (show report exampleTwelve earlierImage = some (.fileCheckOk, 4) by decide +kernel)
  refine ⟨err, ctx, hrun, hok, fun hstaged => ?_⟩
  have htwelve := hstaged.1
  rw [hword] at htwelve
  exact absurd htwelve (by decide)

end Abox.Ymodem
