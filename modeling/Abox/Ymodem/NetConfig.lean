import Abox.Ymodem.Tofile

/-!
# A network configuration received by Ymodem

`_rym_end` does not parse the file but what the last packet has left in the
receive buffer. A file on a USB disk is parsed as a whole.

* `outcome_eq`: what a transfer does is decided by what is left in the buffer.
* `sameConfig_iff`: the two ways agree on all files exactly if a file is sent in
  one block.
-/

namespace Abox.Ymodem

open Nor Flash Config

/-! ## Specification -/

/-- What a transfer has come to: whether the file was accepted, and the system. -/
def outcome (r : Option (RymErr × RymCtx ToFile)) : Option (Bool × ServerSystem) :=
  r.map fun r => (decide (r.2.user.fileType = .fileCheckOk), r.2.user.sys)

namespace Sending

/-- The transfer and the USB disk do the same with the file, from the same system
    and with the same contents of the stack. -/
def Agrees (s : Sending) (serNetConfig : ServerNetInformation) (buf : List Byte) (u : ToFile) :
    Prop :=
  outcome (rymWriteToFile serNetConfig s.sender.dev buf u) = netSet u.sys serNetConfig s.file

def sizes (s : Sending) : List ℕ := s.blocks.map fun b => b.data.length

/-- What is behind `buf + 3` when the last packet has come in. -/
def remains (s : Sending) (buf : List Byte) : List Byte :=
  ((packets 1 s.blocks).foldl (fun buf p => p.received buf) (s.header.received buf)).drop 3

end Sending

/-- Blocks of these sizes can hold a file of `n` bytes, and all of them are
    needed. -/
structure LegalBlocking (n : ℕ) (sizes : List ℕ) : Prop where
  size : ∀ k ∈ sizes, k = 128 ∨ k = 1024
  covers : n ≤ sizes.sum
  needed : sizes.dropLast.sum < n

/-! ## What is parsed -/

/-- The packets of a configuration change the buffer and `temp` only. -/
theorem feed_netConfig (sn : ServerNetInformation) {u : ToFile} (h : u.fileType ≠ .fileUpdata)
    (buf : List Byte) (ps : List Packet) :
    ∃ temp, feed (callbacks sn) buf u ps =
      some (ps.foldl (fun buf p => p.received buf) buf, { u with temp := temp }) := by
  induction ps generalizing u buf with
  | nil => exact ⟨u.temp, rfl⟩
  | cons p ps ih =>
    have hdata : (callbacks sn).onData u (p.payload buf) p.data.length =
        some (rymCodeAck, { u with temp := toTemp (p.payload buf) p.data.length }) := by
      show rymTof u (p.payload buf) p.data.length = _
      unfold rymTof
      exact if_neg h
    rw [feed, hdata]
    exact ih (u := { u with temp := toTemp (p.payload buf) p.data.length }) h (p.received buf)

theorem toTemp_all (buf : List Byte) : toTemp buf 1024 = readN buf 1024 := by
  unfold toTemp copyTo
  rw [length_readN, List.take_zero, List.nil_append, Nat.zero_add,
    List.drop_of_length_le (by rw [List.length_replicate]), List.append_nil]

/-- The end of a transfer of a configuration. -/
theorem endNetConfig_eq (sn : ServerNetInformation) {u : ToFile}
    (h : u.fileType = .fileNetConfig) :
    (endNetConfig sn u).map (fun u => (decide (u.fileType = .fileCheckOk), u.sys)) =
      takeOver u.sys (handleSerNetConfigFile sn u.temp u.flen.toInt) := by
  unfold endNetConfig takeOver
  cases handleSerNetConfigFile sn u.temp u.flen.toInt with
  | none => rfl
  | some r =>
    obtain ⟨ret, cfg⟩ := r
    dsimp only
    split_ifs
    · rw [Option.map_map]
      rfl
    · rw [Option.map_some, h]
      rfl

theorem rymEnd_netConfig (sn : ServerNetInformation) {u : ToFile}
    (h : u.fileType = .fileNetConfig) (buf : List Byte) (len : ℕ) :
    rymEnd sn u buf len = (endNetConfig sn { u with temp := readN buf 1024 }).map
      fun cctx => (rymCodeAck, cctx) := by
  unfold rymEnd
  dsimp only
  rw [h, toTemp_all]

/-- A transfer of a configuration comes to what the remains of the last packets
    in the buffer are parsed to. -/
theorem outcome_eq {s : Sending} (hname : s.isNetFile = true) (sn : ServerNetInformation)
    (buf : List Byte) (u : ToFile) :
    outcome (rymWriteToFile sn s.sender.dev buf u) =
      takeOver u.sys (handleSerNetConfigFile sn (readN (s.remains buf) 1024) s.flen.toInt) := by
  have hrun : outcome (rymWriteToFile sn s.sender.dev buf u) =
      (session (callbacks sn) s.sender buf u).map
        fun u => (decide (u.fileType = .fileCheckOk), u.sys) := by
    rw [← doRecv_session (callbacks_acks sn) (fun _ _ _ _ _ hb => by cases hb; rfl) s.waits_lt,
      Option.map_map]
    rfl
  obtain ⟨v, hsession, htype, hflen, hsys⟩ : ∃ v, session (callbacks sn) s.sender buf u =
      (rymEnd sn v (s.remains buf) 128).map Prod.snd ∧
      v.fileType = .fileNetConfig ∧ v.flen = s.flen ∧ v.sys = u.sys := by
    obtain ⟨temp, hbegin⟩ := rymBg_header s u buf
    rw [if_pos hname] at hbegin
    unfold session
    rw [s.sender_header, s.sender_blocks,
      show (callbacks sn).onBegin u (s.header.payload buf) 128 = _ from hbegin]
    dsimp only
    obtain ⟨temp', hfeed⟩ := feed_netConfig sn (u := { u with
      temp := temp
      flen := s.flen
      fileAddr := BitVec.ofNat 32 (updataAppAddr + 4)
      fileType := .fileNetConfig }) (fun h => by cases h) (s.header.received buf)
      (packets 1 s.blocks)
    rw [hfeed]
    exact ⟨⟨temp', s.flen, _, .fileNetConfig, u.sys⟩, rfl, rfl, rfl, rfl⟩
  rw [hrun, hsession, rymEnd_netConfig sn htype, Option.map_map, Option.map_map, ← hflen, ← hsys]
  generalize readN (s.remains buf) 1024 = temp
  exact endNetConfig_eq sn (u := { v with temp := temp }) htype

/-! ## What is left in the buffer -/

theorem packets_append (n : ℕ) (bs cs : List Block) :
    packets n (bs ++ cs) = packets n bs ++ packets (n + bs.length) cs := by
  induction bs generalizing n with
  | nil => rfl
  | cons b bs ih =>
    rw [List.cons_append, packets, packets, ih, List.append_assoc, List.length_cons,
      Nat.add_right_comm n 1, Nat.add_assoc n]

/-- The last packet is in front of what was left by the ones before it. -/
theorem remains_concat {s : Sending} {bs : List Block} {b : Block} (h : s.blocks = bs ++ [b])
    (buf : List Byte) :
    ∃ p : Packet, p.data = b.data ∧ s.remains buf = p.payload
      ((packets 1 bs ++ List.replicate b.again p).foldl (fun buf p => p.received buf)
        (s.header.received buf)) := by
  refine ⟨⟨BitVec.ofNat 8 (1 + bs.length), b.data, b.length_data⟩, rfl, ?_⟩
  unfold Sending.remains
  rw [h, packets_append, packets, packets, List.append_nil, List.replicate_succ',
    ← List.append_assoc, List.foldl_append]
  exact Packet.payload_received _ _

theorem getD_payload (p : Packet) (buf : List Byte) {i : ℕ} (h : i < p.data.length) :
    (p.payload buf).getD i 0 = p.data.getD i 0 := by
  unfold Packet.payload
  exact List.getD_append _ _ _ _ h

theorem getD_readN (src : List Byte) {n i : ℕ} (h : i < n) :
    (readN src n).getD i 0 = src.getD i 0 := by
  have hlt : i < (readN src n).length := by rwa [length_readN]
  rw [List.getD_eq_getElem _ _ hlt]
  simp [readN]

/-! ## One block -/

/-- The buffer of `readNetSet` holds the file and zeros. -/
theorem getD_copyTo (file : List Byte) (n i : ℕ) :
    (copyTo (List.replicate n 0) 0 file).getD i 0 = file.getD i 0 := by
  unfold copyTo
  rw [List.take_zero, List.nil_append, Nat.zero_add]
  by_cases h : i < file.length
  · rw [List.getD_append _ _ _ _ h]
  · rw [List.getD_append_right _ _ _ _ (Nat.le_of_not_lt h),
      List.getD_eq_default file _ (Nat.le_of_not_lt h), List.drop_replicate,
      List.getD_eq_getElem?_getD]
    exact List.getElem?_getD_replicate_default_eq ..

theorem readNetSet_eq {file : List Byte} (h1 : 1 ≤ file.length) (h2 : file.length ≤ 1024)
    (sn : ServerNetInformation) :
    readNetSet file sn =
      handleSerNetConfigFile sn (copyTo (List.replicate 1024 0) 0 file) file.length := by
  have hne : ¬ (file = [] ∨ usbBufLen < file.length) := by
    rintro (rfl | h)
    · simp at h1
    · unfold usbBufLen at h
      omega
  unfold readNetSet
  rw [if_neg hne]
  rfl

theorem toInt_flen {s : Sending} (h : s.file.length ≤ 1024) : s.flen.toInt = s.file.length := by
  have hmax : ((s.file.length : ℕ) : ℤ) ≤ longMax := by
    unfold longMax
    omega
  unfold Sending.flen
  rw [min_eq_right hmax, BitVec.ofInt_natCast, BitVec.toInt_eq_toNat_of_lt, BitVec.toNat_ofNat]
  · omega
  · rw [BitVec.toNat_ofNat]
    omega

/-- A configuration sent in one block is stored, or rejected, like one on a USB
    disk. -/
theorem agrees_of_single {s : Sending} (hname : s.isNetFile = true) (h1 : 1 ≤ s.file.length)
    (h2 : s.file.length ≤ 1024) (hsizes : s.sizes.length = 1) (sn : ServerNetInformation)
    (buf : List Byte) (u : ToFile) : s.Agrees sn buf u := by
  obtain ⟨b, hb⟩ : ∃ b, s.blocks = [b] := by
    unfold Sending.sizes at hsizes
    rw [List.length_map] at hsizes
    exact List.length_eq_one_iff.1 hsizes
  obtain ⟨p, hp, hremains⟩ := remains_concat (show s.blocks = [] ++ [b] from hb) buf
  have hfile : s.file <+: p.data := by
    have := s.file_prefix
    rwa [hb, List.flatMap_singleton, ← hp] at this
  have hbytes : ∀ i < s.file.length, (readN (s.remains buf) 1024).getD i 0 =
      (copyTo (List.replicate 1024 0) 0 s.file).getD i 0 := by
    intro i hi
    have hlt : i < p.data.length := hi.trans_le hfile.length_le
    rw [getD_readN _ (by omega), hremains, getD_payload p _ hlt, getD_copyTo,
      List.getD_eq_getElem _ _ hlt, List.getD_eq_getElem _ _ hi, hfile.getElem]
  unfold Sending.Agrees
  rw [outcome_eq hname, netSet, readNetSet_eq h1 h2, toInt_flen h2]
  generalize readN (s.remains buf) 1024 = temp at hbytes ⊢
  generalize copyTo (List.replicate 1024 0) 0 s.file = buff at hbytes ⊢
  rw [handleSerNetConfigFile_congr (by omega) (searchCharacter_congr hbytes _)
    (searchCharacter_congr hbytes _) hbytes]

/-! ## Several blocks -/

/-- A configuration with short values: `:eth`, `:open`, three times `:1`, and
    twice `:x`, each with its carriage return. -/
def shortConfig : List Byte :=
  [0x3A, 0x65, 0x74, 0x68, 0x0D, 0x3A, 0x6F, 0x70, 0x65, 0x6E, 0x0D, 0x3A, 0x31, 0x0D,
    0x3A, 0x31, 0x0D, 0x3A, 0x31, 0x0D, 0x3A, 0x78, 0x0D, 0x3A, 0x78, 0x0D]

/-- It, with zeros up to `n` bytes. -/
def shortFile (n : ℕ) : List Byte := shortConfig ++ List.replicate (n - 26) 0

/-- A block of zeros. -/
def zeroBlock (k : ℕ) : Block :=
  if k = 128 then ⟨List.replicate 128 0, 0, Or.inl List.length_replicate⟩
  else ⟨List.replicate 1024 0, 0, Or.inr List.length_replicate⟩

theorem data_zeroBlock {k : ℕ} (h : k = 128 ∨ k = 1024) :
    (zeroBlock k).data = List.replicate k 0 := by
  unfold zeroBlock
  rcases h with rfl | rfl
  · rfl
  · rw [if_neg (by omega)]

theorem again_zeroBlock (k : ℕ) : (zeroBlock k).again = 0 := by
  unfold zeroBlock
  split_ifs <;> rfl

theorem flatMap_zeroBlock {rest : List ℕ} (h : ∀ k ∈ rest, k = 128 ∨ k = 1024) :
    (rest.map zeroBlock).flatMap Block.data = List.replicate rest.sum 0 := by
  induction rest with
  | nil => rfl
  | cons k rest ih =>
    rw [List.map_cons, List.flatMap_cons, data_zeroBlock (h k List.mem_cons_self),
      ih fun k hk => h k (List.mem_cons_of_mem _ hk), List.sum_cons, List.replicate_add]

/-- The block with the configuration. -/
def shortBlock : Block := ⟨shortFile 128, 0, Or.inl rfl⟩

theorem length_shortFile {n : ℕ} (h : 26 ≤ n) : (shortFile n).length = n := by
  show (shortConfig ++ List.replicate (n - 26) 0).length = n
  rw [List.length_append, List.length_replicate]
  show 26 + (n - 26) = n
  omega

theorem netFileName_ne_zero : ∀ b ∈ netFileName, b ≠ 0 := by decide

theorem length_shortHeader {n : ℕ} (h1 : 26 ≤ n) (h2 : n ≤ 1024) :
    (headerData netFileName (shortFile n).length 0
      (List.replicate (113 - (decimal (shortFile n).length).length) 0)).length = 128 := by
  have := @length_decimal_le n 3 (by omega)
  rw [length_shortFile h1]
  simp [headerData, netFileName]
  omega

theorem shortFile_prefix {n : ℕ} {rest : List ℕ} (h1 : 26 ≤ n)
    (hsize : ∀ k ∈ rest, k = 128 ∨ k = 1024) (hcovers : n ≤ 128 + rest.sum) :
    shortFile n <+: (shortBlock :: rest.map zeroBlock).flatMap Block.data := by
  rw [List.flatMap_cons, flatMap_zeroBlock hsize]
  refine ⟨List.replicate (128 + rest.sum - n) 0, ?_⟩
  show shortConfig ++ List.replicate (n - 26) 0 ++ _ =
    shortConfig ++ List.replicate 102 0 ++ List.replicate rest.sum 0
  rw [List.append_assoc, List.append_assoc, ← List.replicate_add, ← List.replicate_add]
  congr 2
  omega

/-- The configuration in blocks of the sizes 128 and `rest`. -/
def shortSending (n : ℕ) (rest : List ℕ) (h1 : 26 ≤ n) (h2 : n ≤ 1024)
    (hsize : ∀ k ∈ rest, k = 128 ∨ k = 1024) (hcovers : n ≤ 128 + rest.sum) : Sending where
  name := netFileName
  file := shortFile n
  stop := 0
  fill := List.replicate (113 - (decimal (shortFile n).length).length) 0
  waits := 0
  headerAgain := 0
  blocks := shortBlock :: rest.map zeroBlock
  tail := []
  name_ne_zero := netFileName_ne_zero
  stop_not_digit := isDigit_zero
  length_header := length_shortHeader h1 h2
  file_prefix := shortFile_prefix h1 hsize hcovers
  waits_lt := handshakeTimeout_pos

theorem getD_replicate_zero (n i : ℕ) : (List.replicate n (0 : Byte)).getD i 0 = 0 := by
  rw [List.getD_eq_getElem?_getD]
  exact List.getElem?_getD_replicate_default_eq ..

theorem getD_shortFile_of_le (n : ℕ) {i : ℕ} (h : 26 ≤ i) : (shortFile n).getD i 0 = 0 := by
  unfold shortFile
  rw [List.getD_append_right _ _ _ _ h]
  exact getD_replicate_zero _ _

theorem getD_shortFile_of_lt (n : ℕ) {i : ℕ} (h : i < 26) :
    (shortFile n).getD i 0 = shortConfig.getD i 0 := List.getD_append _ _ _ _ h

/-- The USB disk accepts the configuration. -/
theorem netSet_shortFile {n : ℕ} (h1 : 26 ≤ n) (h2 : n ≤ 1024) (s : ServerSystem) :
    ∃ s', netSet s ServerNetInformation.zero (shortFile n) = some (true, s') := by
  have hbytes : ∀ i, (copyTo (List.replicate 1024 0) 0 (shortFile n)).getD i 0 =
      (shortFile n).getD i 0 := getD_copyTo (shortFile n) 1024
  have hlen := length_shortFile h1
  have hread := readNetSet_eq (show 1 ≤ (shortFile n).length by omega) (by omega)
    ServerNetInformation.zero
  rw [hlen] at hread
  generalize copyTo (List.replicate 1024 0) 0 (shortFile n) = buff at hbytes hread
  have hmark : ∀ ch, ch ≠ 0 → searchCharacter buff n ch = searchCharacter shortConfig 26 ch := by
    intro ch hch
    have hzeros := searchCharacter_zeros (n := 26)
      (fun i hi => (hbytes i).trans (getD_shortFile_of_le n hi)) hch (n - 26)
    rw [show 26 + (n - 26) = n by omega] at hzeros
    exact hzeros.trans (searchCharacter_congr
      (fun i hi => (hbytes i).trans (getD_shortFile_of_lt n hi)) ch)
  rw [handleSerNetConfigFile_congr (by decide) (hmark _ (by decide)) (hmark _ (by decide))
    (fun i hi => (hbytes i).trans (getD_shortFile_of_lt n hi))] at hread
  obtain ⟨⟨ret, cfg⟩, hres, hret⟩ := Option.map_eq_some_iff.1
    (show (handleSerNetConfigFile ServerNetInformation.zero shortConfig 26).map Prod.fst =
      some rtEok by decide +kernel)
  obtain rfl : ret = rtEok := hret
  obtain ⟨s', hs', -⟩ := controlServerInfo_writeNetconfig s cfg
  refine ⟨s', ?_⟩
  unfold netSet takeOver
  rw [hread, hres]
  dsimp only
  rw [if_pos rfl, hs']
  rfl

/-- A buffer without marks is rejected. -/
theorem takeOver_zeros {buf : List Byte} (h : ∀ i < 1024, buf.getD i 0 = 0) {n : ℕ}
    (hn : n ≤ 1024) (s : ServerSystem) (sn : ServerNetInformation) :
    takeOver s (handleSerNetConfigFile sn buf n) = some (false, s) := by
  have hnone : searchCharacter buf n usbDataMark2 = [] := by
    rw [List.eq_nil_iff_forall_not_mem]
    intro i hi
    obtain ⟨hlt, hmark⟩ := mem_searchCharacter.1 hi
    rw [h i (by simp at hlt; omega)] at hmark
    exact absurd hmark (by decide)
  unfold handleSerNetConfigFile
  rw [hnone]
  rfl

/-- Small packets change nothing from the place 133 on. -/
theorem drop_received {p : Packet} (h : p.data.length = 128) (buf : List Byte) :
    (p.received buf).drop 133 = buf.drop 133 := by
  unfold Packet.received
  have hlen : p.bytes.length = 133 := by rw [p.length_bytes, h]
  rw [hlen, ← hlen, List.drop_left]

theorem drop_foldl_received {ps : List Packet} (h : ∀ p ∈ ps, p.data.length = 128)
    (buf : List Byte) :
    (ps.foldl (fun buf p => p.received buf) buf).drop 133 = buf.drop 133 := by
  induction ps generalizing buf with
  | nil => rfl
  | cons p ps ih =>
    rw [List.foldl_cons, ih fun q hq => h q (List.mem_cons_of_mem _ hq),
      drop_received (h p List.mem_cons_self)]

theorem data_of_mem_packets {n : ℕ} {bs : List Block} {p : Packet} (h : p ∈ packets n bs) :
    ∃ b ∈ bs, p.data = b.data := by
  induction bs generalizing n with
  | nil => cases h
  | cons b bs ih =>
    rw [packets, List.mem_append] at h
    rcases h with h | h
    · exact ⟨b, List.mem_cons_self, by rw [(List.mem_replicate.1 h).2]⟩
    · obtain ⟨c, hc, hp⟩ := ih h
      exact ⟨c, List.mem_cons_of_mem _ hc, hp⟩

/-- The checksum of zeros. -/
theorem CcittCrc16_zeros (n : ℕ) : CcittCrc16 (List.replicate n 0) = 0 := by
  induction n with
  | zero => rfl
  | succ n ih =>
    rw [List.replicate_succ', CcittCrc16_push, ih]
    decide +kernel

/-- The receive buffer at first, in the runs below. -/
def zeroBuf : List Byte := List.replicate rymStxPkgSz 0

/-- After several blocks, of which all but the last are small, there is nothing
    but zeros. -/
theorem remains_zeros {s : Sending} {mid : List ℕ} {last : ℕ} (hmid : ∀ k ∈ mid, k = 128)
    (hlast : last = 128 ∨ last = 1024)
    (hblocks : s.blocks = (shortBlock :: mid.map zeroBlock) ++ [zeroBlock last]) :
    ∀ i < 1024, (s.remains zeroBuf).getD i 0 = 0 := by
  obtain ⟨p, hp, hremains⟩ := remains_concat hblocks zeroBuf
  rw [data_zeroBlock hlast] at hp
  rw [again_zeroBlock, List.replicate_zero, List.append_nil] at hremains
  intro i hi
  rw [hremains]
  by_cases hlt : i < last
  · rw [getD_payload p _ (by rwa [hp, List.length_replicate]), hp]
    exact getD_replicate_zero _ _
  · obtain rfl : last = 128 := by omega
    have hsmall : ∀ q ∈ packets 1 (shortBlock :: mid.map zeroBlock), q.data.length = 128 := by
      intro q hq
      obtain ⟨b, hb, hdata⟩ := data_of_mem_packets hq
      rw [hdata]
      rcases List.mem_cons.1 hb with rfl | hb
      · rfl
      · obtain ⟨k, hk, rfl⟩ := List.mem_map.1 hb
        rw [data_zeroBlock (Or.inl (hmid k hk)), List.length_replicate, hmid k hk]
    unfold Packet.payload
    rw [hp, List.length_replicate, CcittCrc16_zeros, drop_foldl_received hsmall,
      drop_received s.header.length_eq]
    have hcrc : ccittBytes 0 = List.replicate 2 0 := by decide
    rw [hcrc, zeroBuf, List.drop_replicate, ← List.replicate_add, ← List.replicate_add]
    exact getD_replicate_zero _ _

/-- The state in the runs below. -/
def exampleState : ToFile := ⟨[], 0, 0, .fileUpdata, ⟨fun _ => 0xFF, 0, none⟩⟩

/-- A configuration in several blocks that is rejected, and accepted from a USB
    disk. -/
theorem not_agrees {s : Sending} {n : ℕ} {mid : List ℕ} {last : ℕ} (hname : s.isNetFile = true)
    (h1 : 26 ≤ n) (h2 : n ≤ 1024) (hfile : s.file = shortFile n) (hmid : ∀ k ∈ mid, k = 128)
    (hlast : last = 128 ∨ last = 1024)
    (hblocks : s.blocks = (shortBlock :: mid.map zeroBlock) ++ [zeroBlock last]) :
    ¬ s.Agrees ServerNetInformation.zero zeroBuf exampleState := by
  intro hagree
  unfold Sending.Agrees at hagree
  have hlen : s.file.length = n := by rw [hfile, length_shortFile h1]
  have hzeros : ∀ i < 1024, (readN (s.remains zeroBuf) 1024).getD i 0 = 0 := by
    intro i hi
    rw [getD_readN _ hi, remains_zeros hmid hlast hblocks i hi]
  obtain ⟨s', hs'⟩ := netSet_shortFile h1 h2 exampleState.sys
  rw [outcome_eq hname, toInt_flen (by omega), hlen, takeOver_zeros hzeros h2, hfile, hs'] at hagree
  injection hagree with hagree
  cases congrArg Prod.fst hagree

/-- A legal blocking with several blocks: only the last one may be large. -/
theorem LegalBlocking.several {n : ℕ} {sizes : List ℕ} (h : LegalBlocking n sizes) (h1 : 1 ≤ n)
    (h2 : n ≤ 1024) (hne : sizes.length ≠ 1) :
    ∃ mid last, sizes = 128 :: (mid ++ [last]) ∧ (∀ k ∈ mid, k = 128) ∧
      (last = 128 ∨ last = 1024) ∧ 128 < n := by
  have hnil : sizes ≠ [] := by
    rintro rfl
    have hcovers : n ≤ 0 := h.covers
    omega
  obtain ⟨init, last, rfl⟩ : ∃ init last, sizes = init ++ [last] :=
    ⟨sizes.dropLast, sizes.getLast hnil, (List.dropLast_append_getLast hnil).symm⟩
  have hneeded : init.sum < n := by
    have := h.needed
    rwa [List.dropLast_concat] at this
  have hinit : ∀ k ∈ init, k = 128 := by
    intro k hk
    have hle := List.single_le_sum (fun _ _ => Nat.zero_le _) k hk
    have := h.size k (List.mem_append_left _ hk)
    omega
  obtain ⟨k, mid, rfl⟩ : ∃ k mid, init = k :: mid := by
    cases init with
    | nil => exact absurd rfl hne
    | cons k mid => exact ⟨k, mid, rfl⟩
  obtain rfl : k = 128 := hinit k List.mem_cons_self
  rw [List.sum_cons] at hneeded
  exact ⟨mid, last, rfl, fun k hk => hinit k (List.mem_cons_of_mem _ hk),
    h.size last (by simp), by omega⟩

section

variable {n : ℕ} {rest : List ℕ} (h1 : 26 ≤ n) (h2 : n ≤ 1024)
  (hsize : ∀ k ∈ rest, k = 128 ∨ k = 1024) (hcovers : n ≤ 128 + rest.sum)

theorem isNetFile_shortSending : (shortSending n rest h1 h2 hsize hcovers).isNetFile = true := by
  show decide (netFileName = readN netFileName 13) = true
  decide

theorem sizes_shortSending : (shortSending n rest h1 h2 hsize hcovers).sizes = 128 :: rest := by
  show 128 :: (rest.map zeroBlock).map (fun b => b.data.length) = 128 :: rest
  congr 1
  rw [List.map_map]
  conv_rhs => rw [← List.map_id rest]
  apply List.map_congr_left
  intro k hk
  rw [Function.comp_apply, data_zeroBlock (hsize k hk), List.length_replicate, id]

end

/-- The two ways do the same with all files of a length and a legal blocking
    exactly if the blocking has one block. -/
theorem sameConfig_iff {n : ℕ} {sizes : List ℕ} (h1 : 1 ≤ n) (h2 : n ≤ 1024)
    (h : LegalBlocking n sizes) :
    (∀ s : Sending, s.isNetFile = true → s.file.length = n → s.sizes = sizes →
      ∀ sn buf u, s.Agrees sn buf u) ↔ sizes.length = 1 := by
  constructor
  · intro hall
    by_contra hne
    obtain ⟨mid, last, rfl, hmid, hlast, hn⟩ := h.several h1 h2 hne
    have hn26 : 26 ≤ n := by omega
    have hrest : ∀ k ∈ mid ++ [last], k = 128 ∨ k = 1024 :=
      fun k hk => h.size k (List.mem_cons_of_mem _ hk)
    have hcovers : n ≤ 128 + (mid ++ [last]).sum := by
      have := h.covers
      rwa [List.sum_cons] at this
    have hname := isNetFile_shortSending hn26 h2 hrest hcovers
    have hblocks : (shortSending n (mid ++ [last]) hn26 h2 hrest hcovers).blocks =
        (shortBlock :: mid.map zeroBlock) ++ [zeroBlock last] := by
      show shortBlock :: (mid ++ [last]).map zeroBlock = _
      rw [List.map_append]
      rfl
    exact not_agrees hname hn26 h2 rfl hmid hlast hblocks
      (hall _ hname (length_shortFile hn26) (sizes_shortSending hn26 h2 hrest hcovers) _ _ _)
  · intro hone s hname hlen hsizes
    exact agrees_of_single hname (by omega) (by omega) (by rw [hsizes, hone])

/-- A short configuration in one block is taken over. -/
theorem sameConfig_short : (shortSending 26 [] le_rfl (by decide) (by decide) (by decide)).Agrees
    ServerNetInformation.zero zeroBuf exampleState := by
  have hlegal : LegalBlocking 26 [128] := ⟨by decide, by decide, by decide⟩
  exact (sameConfig_iff (by decide) (by decide) hlegal).2 rfl _ (isNetFile_shortSending _ _ _ _)
    rfl rfl _ _ _

/-- The same configuration with zeros up to 129 bytes, in two small blocks: the
    USB disk accepts it, and the transfer rejects it. -/
theorem short_in_two_blocks :
    LegalBlocking 129 [128, 128] ∧
      ∃ s : Sending, s.isNetFile = true ∧ s.file = shortFile 129 ∧ s.sizes = [128, 128] ∧
        (∃ s', netSet exampleState.sys ServerNetInformation.zero s.file = some (true, s')) ∧
        ¬ s.Agrees ServerNetInformation.zero zeroBuf exampleState := by
  refine ⟨⟨by decide, by decide, by decide⟩,
    shortSending 129 [128] (by decide) (by decide) (by decide) (by decide),
    isNetFile_shortSending _ _ _ _, rfl, sizes_shortSending _ _ _ _,
    netSet_shortFile (by decide) (by decide) _, ?_⟩
  exact not_agrees (n := 129) (isNetFile_shortSending _ _ _ _) (by decide) (by decide) rfl
    (show ∀ k ∈ ([] : List ℕ), k = 128 from fun _ hk => by cases hk) (Or.inl rfl) rfl

end Abox.Ymodem
