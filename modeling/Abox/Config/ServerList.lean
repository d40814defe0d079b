import Abox.Config.ServerInfo
import Abox.Server.Send

/-!
# The list of servers, from a frame and back

Model of `del_smd4_func` and `sendCmd122ForScmd4Scmd5`
(`applications/dictionary.c` lines 312–390), which store a list of servers that
the server sends and reply with the list that is stored then. What follows the
reply (the connection is closed and the device restarts) is left out.

* `serverList_roundTrip`: the stored list and the one in the reply are the
  built-in server and the servers of the frame.
-/

namespace Abox.Config

open Server Update

/-! ## The functions -/

/-- `writeServerInfo` (`exchange.c` lines 341–346). -/
def writeServerInfo (s : ServerSystem) (writeInfo : ServerNetInformation) : Option ServerSystem :=
  if serverWriteNum < writeInfo.num then some s
  else (controlServerInfo s .writeServerInfo (some writeInfo)).map Prod.fst

/-- `readServerInfo` (`exchange.c` lines 348–352) on a zeroed `readInfo`. -/
def readServerInfo (s : ServerSystem) : Option (ServerSystem × ServerNetInformation) :=
  (controlServerInfo s .readServerInfo (some ServerNetInformation.zero)).map fun (s, readInfo) =>
    (s, readInfo.getD ServerNetInformation.zero)

/-- `netInfo[i]`; past the end of the array it reads as zero. -/
def ServerNetInformation.netAt (s : ServerNetInformation) (i : ℕ) : NetInfo :=
  if h : i < serverNumMax then s.netInfo ⟨i, h⟩ else NetInfo.zero

/-- `TCMD_122` (`mydef.h` line 107). -/
def tcmd122 : Byte := 122

/-- `TCMD_121_SCMD_SERVER_INFO` (`dictionary.h` line 52). -/
def tcmd121ScmdServerInfo : BitVec 16 := 4

/-- The loop of `sendCmd122ForScmd4Scmd5` (lines 343–350): `send` and `len`
    afterwards. -/
def copyNetInfo (serNetInfo : ServerNetInformation) (send : List Byte) (len : ℕ) :
    List Byte × ℕ :=
  (List.range serNetInfo.num.toNat).foldl (fun (send, len) i =>
    let send := memcpy send len ((Layout.byte.array 8).encode (serNetInfo.netAt i).serport)
    let len := len + 8
    let send := memcpy send len ((Layout.byte.array 16).encode (serNetInfo.netAt i).seraddr)
    (send, len + 16)) (send, len)

/-- `sendCmd122ForScmd4Scmd5`: the system afterwards, and the frame that is handed
    to `sendDataToServer`; `appId` is `Sys_Setup.app.id`. -/
def sendCmd122ForScmd4Scmd5 (appId : BitVec 32) (s : ServerSystem) (scmd : BitVec 16) :
    Option (ServerSystem × List Byte × ℕ) := do
  let (s, serNetInfo) ← readServerInfo s
  let packcmd : StPackCmd :=
    { soh := csoh
      cmd := tcmd122
      id := appId
      len := (2 + 4 + serNetInfo.serverNetNum * 24).setWidth 16 }
  let send := List.replicate buffLen 0
  let len := sizeofStPackCmd
  let send := memcpy send len (Layout.half.encode scmd)
  let len := len + 2
  let send := memcpy send len (Layout.word.encode serNetInfo.serverNetNum)
  let len := len + 4
  let (send, len) := copyNetInfo serNetInfo send len
  let send := memcpy send 0 (packcmdBytes packcmd)
  return (s, Abox_send_pack send (BitVec.ofNat 16 len))

/-- The record `del_smd4_func` takes from a frame. -/
def frameServerInfo (rev : List Byte) : ServerNetInformation :=
  serverNetInformationLayout.decode
    (readN (rev.drop (sizeofStPackCmd + 2)) Flash.sizeofServerNetInformation)

/-- `del_smd4_func`: the system and the reply, if one is sent. -/
def del_smd4_func (appId : BitVec 32) (s : ServerSystem) (rev : List Byte) :
    Option (ServerSystem × Option (List Byte × ℕ)) :=
  let serNetInfo := frameServerInfo rev
  if serNetInfo.serverNetNum ≠ 0 ∧ serNetInfo.num < serverNumMax then do
    let s ← writeServerInfo s serNetInfo
    let (s, reply) ← sendCmd122ForScmd4Scmd5 appId s tcmd121ScmdServerInfo
    return (s, some reply)
  else some (s, none)

/-! ## Lists of servers -/

/-- The servers of a record. -/
def ServerNetInformation.servers (s : ServerNetInformation) : List NetInfo :=
  (List.range s.num.toNat).map s.netAt

/-- The count of a scmd-4 frame. -/
def frameCount (rev : List Byte) : BitVec 32 := u32At rev (sizeofStPackCmd + 2)

/-- The entry `i` of a scmd-4 frame. -/
def frameEntry (rev : List Byte) (i : ℕ) : NetInfo :=
  netInfoLayout.decode (readN (rev.drop (sizeofStPackCmd + 2 + 4 + 24 * i)) 24)

/-- The bytes of a list of servers. -/
def serversBytes (l : List NetInfo) : List Byte := l.flatMap netInfoLayout.encode

theorem length_serversBytes (l : List NetInfo) : (serversBytes l).length = 24 * l.length := by
  induction l with
  | nil => rfl
  | cons n l ih =>
    unfold serversBytes at ih ⊢
    rw [List.flatMap_cons, List.length_append, ih, netInfoLayout.length_encode, List.length_cons]
    show 24 + 24 * l.length = 24 * (l.length + 1)
    omega

theorem readN_drop_take {src : List Byte} {n i k : ℕ} (h : i + k ≤ n) :
    ((readN src n).drop i).take k = readN (src.drop i) k := by
  apply List.ext_getElem
  · simp only [List.length_take, List.length_drop, length_readN]
    omega
  · intro j h1 h2
    simp [readN, List.getD_eq_getElem?_getD, List.getElem?_drop]

theorem frameServerInfo_num (rev : List Byte) :
    (frameServerInfo rev).serverNetNum = frameCount rev := by
  show Layout.word.decode ((readN (rev.drop (sizeofStPackCmd + 2)) 228).take 4) = _
  rw [show (readN (rev.drop (sizeofStPackCmd + 2)) 228).take 4 =
    readN (rev.drop (sizeofStPackCmd + 2)) 4 from readN_drop_take (i := 0) (by decide)]
  simp [readN, Layout.word, frameCount, u32At, u16At, List.getD_eq_getElem?_getD]

theorem frameServerInfo_netInfo (rev : List Byte) (i : Fin serverNumMax) :
    (frameServerInfo rev).netInfo i = frameEntry rev i := by
  have hlt : i.val < 5 := i.isLt
  have hi : i.val * 24 + 24 ≤ 120 := by omega
  have hread : ((readN (rev.drop (sizeofStPackCmd + 2)) 228).drop 4).take 120 =
      readN ((rev.drop (sizeofStPackCmd + 2)).drop 4) 120 := readN_drop_take (by decide)
  show (netInfoLayout.array 5).decode
    (((readN (rev.drop (sizeofStPackCmd + 2)) 228).drop 4).take 120) i = _
  rw [hread, Layout.decode_array]
  show netInfoLayout.decode (((readN _ 120).drop (i * 24)).take 24) = _
  unfold frameEntry
  rw [readN_drop_take hi, List.drop_drop, List.drop_drop, Nat.mul_comm,
    Nat.add_assoc (sizeofStPackCmd + 2) 4]

/-- The record that is written holds the built-in server and those of the frame. -/
theorem servers_writtenServerInfo {r : ServerNetInformation} (h1 : 1 ≤ r.num) (h4 : r.num ≤ 4) :
    (writtenServerInfo r).num = r.num + 1 ∧
      (writtenServerInfo r).servers = defaultNetInfo :: (List.range r.num.toNat).map r.netAt := by
  have hnum : (writtenServerInfo r).num = r.num + 1 := by
    have hr : r.num = r.serverNetNum.toInt := rfl
    rw [hr, BitVec.toInt_eq_toNat_cond] at h1 h4 ⊢
    have hone : (1 : BitVec 32).toNat = 1 := rfl
    show (r.serverNetNum + 1).toInt = _
    rw [BitVec.toInt_eq_toNat_cond, BitVec.toNat_add, hone]
    split_ifs at h1 h4 ⊢ <;> omega
  refine ⟨hnum, ?_⟩
  unfold ServerNetInformation.servers
  rw [hnum, show (r.num + 1).toNat = r.num.toNat + 1 by omega, List.range_succ_eq_map,
    List.map_cons, List.map_map]
  congr 1
  apply List.map_congr_left
  intro i hi
  have hi' := List.mem_range.1 hi
  have hlt : i + 1 < serverNumMax := by show i + 1 < 5; omega
  show (writtenServerInfo r).netAt (i + 1) = r.netAt i
  unfold ServerNetInformation.netAt
  rw [dif_pos hlt, dif_pos (by omega)]
  have hne : (⟨i + 1, hlt⟩ : Fin serverNumMax) ≠ 0 := by
    intro h0
    exact absurd (congrArg Fin.val h0) (Nat.succ_ne_zero i)
  have hsub : (⟨i + 1, hlt⟩ : Fin serverNumMax) - 1 = ⟨i, by omega⟩ := by
    apply Fin.ext
    rw [Fin.sub_def]
    show (5 - 1 + (i + 1)) % 5 = i
    omega
  have hin : ((i + 1 : ℕ) : ℤ) < (r.serverNetNum + 1).toInt := by
    show _ < (writtenServerInfo r).num
    rw [hnum]
    omega
  simp only [writtenServerInfo, if_neg hne, if_pos hin, hsub]

theorem writtenServerInfo_valid {r : ServerNetInformation} (h1 : 1 ≤ r.num) (h4 : r.num ≤ 4) :
    (writtenServerInfo r).valid = true := by
  obtain ⟨hnum, -⟩ := servers_writtenServerInfo h1 h4
  have hfirst : (writtenServerInfo r).netInfo 0 = defaultServerInfo.netInfo 0 := rfl
  have hdefault := defaultServerInfo_valid
  simp only [ServerNetInformation.valid, Bool.not_eq_true', Bool.or_eq_false_iff,
    decide_eq_false_iff_not, not_lt] at hdefault ⊢
  rw [hnum, hfirst]
  refine ⟨⟨⟨?_, ?_⟩, hdefault.1.2⟩, hdefault.2⟩
  · show (1 : ℤ) ≤ r.num + 1
    omega
  · show r.num + 1 ≤ (5 : ℕ)
    omega

/-! ## The reply -/

theorem length_servers (r : ServerNetInformation) : r.servers.length = r.num.toNat := by
  unfold ServerNetInformation.servers
  rw [List.length_map, List.length_range]

theorem serversBytes_append_singleton (l : List NetInfo) (n : NetInfo) :
    serversBytes (l ++ [n]) = serversBytes l ++ (Layout.byte.array 8).encode n.serport ++
      (Layout.byte.array 16).encode n.seraddr := by
  unfold serversBytes
  rw [List.flatMap_append, List.flatMap_singleton, List.append_assoc]
  rfl

theorem length_le_memcpy (buf : List Byte) (off : ℕ) (bs : List Byte) :
    buf.length ≤ (memcpy buf off bs).length := by
  unfold memcpy
  rw [List.length_append, List.length_append, List.length_take, List.length_drop]
  omega

/-- A header is copied over as many bytes. -/
theorem prefix_memcpy_header {bs header rest buf : List Byte} (h : bs ++ rest <+: buf)
    (hlen : bs.length = header.length) : header ++ rest <+: memcpy buf 0 header := by
  obtain ⟨t, rfl⟩ := h
  refine ⟨t, ?_⟩
  unfold memcpy
  rw [List.take_zero, List.nil_append, Nat.zero_add, ← hlen, List.append_assoc bs,
    List.drop_left, List.append_assoc]

/-- The loop copies the servers behind a prefix of the buffer. -/
theorem prefix_copyNetInfo {bs send : List Byte} {len : ℕ} (r : ServerNetInformation)
    (h : bs <+: send) (hlen : bs.length = len) :
    bs ++ serversBytes r.servers <+: (copyNetInfo r send len).1 ∧
      send.length ≤ (copyNetInfo r send len).1.length ∧
      (copyNetInfo r send len).2 = len + 24 * r.num.toNat := by
  unfold copyNetInfo ServerNetInformation.servers
  generalize r.num.toNat = n
  induction n with
  | zero => exact ⟨by simpa [serversBytes] using h, le_rfl, rfl⟩
  | succ n ih =>
    obtain ⟨hpre, hroom, hend⟩ := ih
    rw [List.range_succ, List.foldl_append, List.map_append]
    generalize (List.range n).foldl _ (send, len) = st at hpre hroom hend ⊢
    obtain ⟨send', len'⟩ := st
    have hlen' : (bs ++ serversBytes ((List.range n).map r.netAt)).length = len' := by
      rw [List.length_append, length_serversBytes, List.length_map, List.length_range, hlen]
      exact hend.symm
    have h1 := prefix_memcpy hpre hlen' ((Layout.byte.array 8).encode (r.netAt n).serport)
    have h2 := prefix_memcpy h1 (show _ = len' + 8 by
      rw [List.length_append, hlen', (Layout.byte.array 8).length_encode]; rfl)
      ((Layout.byte.array 16).encode (r.netAt n).seraddr)
    refine ⟨?_, ?_, ?_⟩
    · show bs ++ serversBytes ((List.range n).map r.netAt ++ [r.netAt n]) <+: _
      rw [serversBytes_append_singleton, ← List.append_assoc, ← List.append_assoc]
      exact h2
    · exact le_trans hroom (le_trans (length_le_memcpy _ _ _) (length_le_memcpy _ _ _))
    · show len' + 8 + 16 = _
      have hend' : len' = len + 24 * n := hend
      omega

/-- The payload of the reply. -/
def replyPayload (scmd : BitVec 16) (r : ServerNetInformation) : List Byte :=
  Layout.half.encode scmd ++ Layout.word.encode r.serverNetNum ++ serversBytes r.servers

theorem length_replyPayload (scmd : BitVec 16) (r : ServerNetInformation) :
    (replyPayload scmd r).length = 6 + 24 * r.num.toNat := by
  unfold replyPayload
  rw [List.length_append, List.length_append, length_serversBytes, length_servers]
  rfl

theorem toNat_serverNetNum {r : ServerNetInformation} (h1 : 1 ≤ r.num) :
    r.serverNetNum.toNat = r.num.toNat := by
  have hr : r.num = r.serverNetNum.toInt := rfl
  rw [hr, BitVec.toInt_eq_toNat_cond] at h1 ⊢
  split_ifs at h1 ⊢ <;> omega

/-- The buffer of the reply before the header is written, and the bytes in use. -/
def replyBuffer (scmd : BitVec 16) (r : ServerNetInformation) : List Byte × ℕ :=
  copyNetInfo r (memcpy (memcpy (List.replicate buffLen 0) sizeofStPackCmd
    (Layout.half.encode scmd)) (sizeofStPackCmd + 2) (Layout.word.encode r.serverNetNum))
    (sizeofStPackCmd + 2 + 4)

theorem replyBuffer_spec (scmd : BitVec 16) (r : ServerNetInformation) :
    List.replicate 8 0 ++ replyPayload scmd r <+: (replyBuffer scmd r).1 ∧
      buffLen ≤ (replyBuffer scmd r).1.length ∧
      (replyBuffer scmd r).2 = sizeofStPackCmd + (replyPayload scmd r).length := by
  have hzero : List.replicate 8 (0 : Byte) <+: List.replicate buffLen 0 := by
    rw [show buffLen = 8 + 1016 from rfl, List.replicate_add]
    exact List.prefix_append _ _
  have hscmd := prefix_memcpy hzero (show _ = sizeofStPackCmd from rfl) (Layout.half.encode scmd)
  have hcount := prefix_memcpy hscmd (show _ = sizeofStPackCmd + 2 from rfl)
    (Layout.word.encode r.serverNetNum)
  obtain ⟨hlist, hroom, hend⟩ := prefix_copyNetInfo r hcount
    (show _ = sizeofStPackCmd + 2 + 4 from rfl)
  refine ⟨?_, ?_, ?_⟩
  · unfold replyPayload
    rw [← List.append_assoc, ← List.append_assoc]
    exact hlist
  · refine le_trans ?_ hroom
    refine le_trans ?_ (length_le_memcpy _ _ _)
    refine le_trans ?_ (length_le_memcpy _ _ _)
    rw [List.length_replicate]
  · rw [length_replyPayload]
    refine hend.trans ?_
    omega

/-- The reply carries the list that is read. -/
theorem sendCmd122_frame (appId : BitVec 32) {s s' : ServerSystem} {r : ServerNetInformation}
    (scmd : BitVec 16) (h : readServerInfo s = some (s', r)) (h1 : 1 ≤ r.num) (h5 : r.num ≤ 5) :
    ∃ f, sendCmd122ForScmd4Scmd5 appId s scmd = some (s', f) ∧
      FrameOf f tcmd122 appId (replyPayload scmd r) := by
  set packcmd : StPackCmd :=
    { soh := csoh
      cmd := tcmd122
      id := appId
      len := (2 + 4 + r.serverNetNum * 24).setWidth 16 } with hpackcmd
  have hsize := length_replyPayload scmd r
  have hlen : packcmd.len.toNat = (replyPayload scmd r).length := by
    have hnum := toNat_serverNetNum h1
    rw [hsize, hpackcmd]
    show ((2 + 4 + r.serverNetNum * 24).setWidth 16).toNat = _
    bv_omega
  have hsend : sendCmd122ForScmd4Scmd5 appId s scmd = some (s', Abox_send_pack
      (memcpy (replyBuffer scmd r).1 0 (packcmdBytes packcmd))
      (BitVec.ofNat 16 (replyBuffer scmd r).2)) := by
    unfold sendCmd122ForScmd4Scmd5
    rw [h]
    rfl
  obtain ⟨hall, hroom, htotal⟩ := replyBuffer_spec scmd r
  have hroom' := length_le_memcpy (replyBuffer scmd r).1 0 (packcmdBytes packcmd)
  have hbuffLen : buffLen = 1024 := rfl
  rw [hsend, htotal]
  exact ⟨_, rfl, frameOf_Abox_send_pack rfl hlen (prefix_memcpy_header hall rfl) (by omega)
    (by omega)⟩

/-! ## The round trip -/

theorem readServerInfo_eq (s : ServerSystem) :
    ∃ s', readServerInfo s = some (s', s.stored.checked) ∧ s'.stored = s.stored.checked := by
  obtain ⟨s', hread, hst, -⟩ := controlServerInfo_read s (some ServerNetInformation.zero)
  refine ⟨s', ?_, hst⟩
  unfold readServerInfo
  rw [hread]
  rfl

theorem writeServerInfo_eq (s : ServerSystem) {r : ServerNetInformation} (h4 : r.num ≤ 4) :
    ∃ s', writeServerInfo s r = some s' ∧ s'.stored = writtenServerInfo r := by
  obtain ⟨s', hwrite, hst, -⟩ :=
    controlServerInfo_writeServer s (show r.num ≤ serverWriteNum from h4)
  refine ⟨s', ?_, hst⟩
  unfold writeServerInfo
  rw [if_neg (not_lt.2 (show r.num ≤ serverWriteNum from h4)), hwrite]
  rfl

theorem servers_frameServerInfo {rev : List Byte} (h4 : (frameServerInfo rev).num ≤ 4) :
    (List.range (frameServerInfo rev).num.toNat).map (frameServerInfo rev).netAt =
      (List.range (frameServerInfo rev).num.toNat).map (frameEntry rev) := by
  apply List.map_congr_left
  intro i hi
  have hi' := List.mem_range.1 hi
  have hlt : i < serverNumMax := by show i < 5; omega
  unfold ServerNetInformation.netAt
  rw [dif_pos hlt]
  exact frameServerInfo_netInfo rev ⟨i, hlt⟩

/-- A frame with a list of one to four servers is stored and read back behind the
    built-in server, and the reply carries the same list. -/
theorem serverList_roundTrip (appId : BitVec 32) (s : ServerSystem) {rev : List Byte}
    (h1 : 1 ≤ (frameCount rev).toNat) (h4 : (frameCount rev).toNat ≤ 4) :
    ∃ s' s'' f r, del_smd4_func appId s rev = some (s', some f) ∧
      readServerInfo s' = some (s'', r) ∧
      r.serverNetNum = frameCount rev + 1 ∧
      r.servers = defaultNetInfo :: (List.range (frameCount rev).toNat).map (frameEntry rev) ∧
      FrameOf f tcmd122 appId (Layout.half.encode tcmd121ScmdServerInfo ++
        Layout.word.encode (frameCount rev + 1) ++ serversBytes
          (defaultNetInfo :: (List.range (frameCount rev).toNat).map (frameEntry rev))) := by
  have hcount : (frameServerInfo rev).num = (frameCount rev).toNat := by
    show (frameServerInfo rev).serverNetNum.toInt = _
    rw [frameServerInfo_num, BitVec.toInt_eq_toNat_of_lt (by omega)]
  have hn1 : 1 ≤ (frameServerInfo rev).num := by omega
  have hn4 : (frameServerInfo rev).num ≤ 4 := by omega
  obtain ⟨hnum, hservers⟩ := servers_writtenServerInfo hn1 hn4
  rw [servers_frameServerInfo hn4, hcount, Int.toNat_natCast] at hservers
  have hsum : (writtenServerInfo (frameServerInfo rev)).serverNetNum = frameCount rev + 1 := by
    rw [← frameServerInfo_num]
    rfl
  -- writing, then reading
  obtain ⟨s1, hwrite, hst1⟩ := writeServerInfo_eq s hn4
  have hchecked : s1.stored.checked = writtenServerInfo (frameServerInfo rev) := by
    rw [hst1, checked_of_valid (writtenServerInfo_valid hn1 hn4)]
  obtain ⟨s2, hread, hst2⟩ := readServerInfo_eq s1
  rw [hchecked] at hread hst2
  obtain ⟨f, hsend, hf⟩ := sendCmd122_frame appId tcmd121ScmdServerInfo hread (by omega) (by omega)
  obtain ⟨s3, hread', -⟩ := readServerInfo_eq s2
  rw [hst2, checked_of_valid (writtenServerInfo_valid hn1 hn4)] at hread'
  refine ⟨s2, s3, f, _, ?_, hread', hsum, hservers, ?_⟩
  · unfold del_smd4_func
    have hne : (frameServerInfo rev).serverNetNum ≠ 0 := by
      rw [frameServerInfo_num]
      intro h0
      rw [h0] at h1
      exact absurd h1 (by decide)
    have hlt : (frameServerInfo rev).num < (serverNumMax : ℤ) := by
      show _ < ((5 : ℕ) : ℤ)
      omega
    simp only [if_pos (And.intro hne hlt), hwrite, hsend, Option.bind_eq_bind, Option.bind_some]
    rfl
  · rw [← hservers, ← hsum]
    exact hf

/-- A frame with one server, `"h"` at port `"1"`. -/
def oneServerFrame : List Byte :=
  packcmdBytes ⟨csoh, 121, 1, 30⟩ ++ [4, 0, 1, 0, 0, 0] ++ [0x31, 0, 0, 0, 0, 0, 0, 0] ++
    0x68 :: List.replicate 15 0

/-- It is stored over an erased record. -/
theorem serverList_one : ∃ s' s'' f r,
    del_smd4_func 1 ⟨fun _ => 0xFF, 0, none⟩ oneServerFrame = some (s', some f) ∧
    readServerInfo s' = some (s'', r) ∧ r.serverNetNum = 2 ∧
    r.servers = [defaultNetInfo, ⟨Chars.ofString 8 [0x31], Chars.ofString 16 [0x68]⟩] ∧
    f.2 = 64 := by
  have hcount : frameCount oneServerFrame = 1 := by decide +kernel
  have hentry : frameEntry oneServerFrame 0 =
      ⟨Chars.ofString 8 [0x31], Chars.ofString 16 [0x68]⟩ := by
    have hread : readN (oneServerFrame.drop (sizeofStPackCmd + 2 + 4 + 24 * 0)) 24 =
        netInfoLayout.encode ⟨Chars.ofString 8 [0x31], Chars.ofString 16 [0x68]⟩ := by
      decide +kernel
    unfold frameEntry
    rw [hread, netInfoLayout.decode_encode]
  obtain ⟨s', s'', f, r, hdel, hread, hnum, hservers, hf⟩ :=
    serverList_roundTrip 1 ⟨fun _ => 0xFF, 0, none⟩
      (show 1 ≤ (frameCount oneServerFrame).toNat by rw [hcount]; decide)
      (show (frameCount oneServerFrame).toNat ≤ 4 by rw [hcount]; decide)
  rw [hcount] at hnum hservers
  refine ⟨s', s'', f, r, hdel, hread, hnum, ?_, ?_⟩
  · rw [hservers, ← hentry]
    rfl
  · rw [hf.total, hcount]
    rfl

end Abox.Config
