import Abox.Radio.Frames
import Abox.Radio.Reassembly
import Abox.Server.Chunking

/-!
# From the fragments of a Cbox to the server

In a poll `checkDataFromSubg` runs behind every answer, on what has been collected so far. What
it leaves stays in `cboxRecv`, and the next fragment is put behind it.

* `Scanned.append`: a scan that goes on where another one has stopped is the scan of the whole.
* `uplink_delivers`: in every poll in which the link is up, what has been handed to the server
  are the frames that one scan meets in all bytes that were collected, however they were cut
  into fragments.
* `uplink_frames`: a poll that brings a list of frames hands exactly these to the server, each
  once and in order.
-/

namespace Abox.Radio

open Server Runs

/-! ## Scans in two parts -/

/-- An incomplete header claims more bytes than there are. -/
theorem claimed_of_short {bs : List Byte} (h : bs.length < 8) :
    bs.length < claimed bs ∧ claimed bs ≤ buffLen := by
  have h7 : bs.getD 7 0 = 0 := List.getD_eq_default _ _ (by omega)
  have hlen : (StPackCmd.ofBytes bs).len = ((0 : Byte) ++ bs.getD 6 0 : BitVec (8 + 8)) :=
    congrArg (fun b : Byte => (b ++ bs.getD 6 0 : BitVec (8 + 8))) h7
  have hbuf : buffLen = 1024 := rfl
  have hclaimed : claimed bs = 10 + (bs.getD 6 0).toNat := by
    unfold claimed cmdLength
    rw [hlen]
    generalize bs.getD 6 0 = b
    revert b
    decide +kernel
  have hbyte := (bs.getD 6 0).isLt
  omega

theorem claimed_append {bs : List Byte} (h : 8 ≤ bs.length) (more : List Byte) :
    claimed (bs ++ more) = claimed bs := by
  unfold claimed
  rw [ofBytes_append h]

theorem rejected_append {bs : List Byte} (h : Rejected bs) (more : List Byte) :
    Rejected (bs ++ more) := by
  have h8 : 8 ≤ bs.length := by
    by_contra hshort
    obtain ⟨hlt, hle⟩ := claimed_of_short (Nat.lt_of_not_le hshort)
    rcases h with h | ⟨h, -⟩ <;> omega
  unfold Rejected
  rw [claimed_append h8]
  rcases h with h | ⟨hle, hcrc⟩
  · exact Or.inl h
  · right
    rw [List.take_append_of_le_length hle, List.length_append]
    exact ⟨by omega, hcrc⟩

/-- A scan goes on where it has stopped. -/
theorem Scanned.append {bs more : List Byte} {fs fs' : List (List Byte)} {rest rest' : List Byte}
    (h : Scanned bs fs rest) (h' : Scanned (rest ++ more) fs' rest') :
    Scanned (bs ++ more) (fs ++ fs') rest' := by
  induction h with
  | nil => exact h'
  | skip hb _ ih => exact .skip hb (ih h')
  | reject hb hrej _ ih => exact .reject hb (rejected_append hrej more) (ih h')
  | @frame bs fs rest hs hle hlen hcrc _ ih =>
    have h8 : 8 ≤ bs.length := by
      by_contra hshort
      have := (claimed_of_short (Nat.lt_of_not_le hshort)).1
      omega
    have hclaimed := claimed_append h8 more
    have hstart : StartsFrame (bs ++ more) := by
      unfold StartsFrame
      rw [getD_append_of_lt (by omega)]
      exact hs
    have hdrop := ih h'
    rw [← List.drop_append_of_le_length hlen, ← hclaimed] at hdrop
    have htake : (bs ++ more).take (claimed (bs ++ more)) = bs.take (claimed bs) := by
      rw [hclaimed, List.take_append_of_le_length hlen]
    rw [List.cons_append, ← htake]
    refine .frame hstart (by omega) ?_ (by rw [htake]; exact hcrc) hdrop
    rw [hclaimed, List.length_append]
    omega
  | wait => exact h'

/-- What a scan leaves, it leaves again. -/
theorem Scanned.again {bs : List Byte} {fs : List (List Byte)} {rest : List Byte}
    (h : Scanned bs fs rest) : Scanned rest [] rest := by
  induction h with
  | nil => exact .nil
  | skip _ _ ih => exact ih
  | reject _ _ _ ih => exact ih
  | frame _ _ _ _ _ ih => exact ih
  | wait hs hlt hle => exact .wait hs hlt hle

theorem claimed_wellFormed {f : List Byte} (h : WellFormed f) : claimed f = f.length := by
  have h1 := h.len_nonneg
  have h2 := h.length_eq
  have h3 := h.le_buffLen
  have hbuf : buffLen = 1024 := rfl
  have hten : (10 : BitVec 32).toInt = 10 := rfl
  have hint : ((StPackCmd.ofBytes f).len.signExtend 32 + 10).toInt = f.length := by
    rw [BitVec.toInt_add, BitVec.toInt_signExtend_of_le (by decide), hten]
    rw [Int.bmod_eq_of_le_mul_two] <;> omega
  unfold claimed cmdLength
  have hnat := BitVec.toInt_eq_toNat_cond ((StPackCmd.ofBytes f).len.signExtend 32 + 10)
  split_ifs at hnat
  · omega
  · omega

/-- A scan meets the frames of a list one by one. -/
theorem scanned_frames {fs : List (List Byte)} (h : ∀ f ∈ fs, WellFormed f) :
    Scanned fs.flatten fs [] := by
  induction fs with
  | nil => exact .nil
  | cons f fs ih =>
    have hf := h f List.mem_cons_self
    have hten := hf.ten_le
    have hself := claimed_wellFormed hf
    have hclaimed : claimed (f ++ fs.flatten) = f.length := by
      rw [claimed_append (by omega), hself]
    have htake : (f ++ fs.flatten).take (claimed (f ++ fs.flatten)) = f := by
      rw [hclaimed, List.take_left]
    have hstart : StartsFrame (f ++ fs.flatten) := by
      unfold StartsFrame
      rw [getD_append_of_lt (by omega)]
      exact hf.head
    rw [List.flatten_cons]
    nth_rewrite 2 [← htake]
    refine .frame hstart ?_ ?_ (by rw [htake]; exact hf.crc) ?_
    · rw [hclaimed]
      exact hf.le_buffLen
    · rw [hclaimed, List.length_append]
      omega
    · rw [hclaimed, List.drop_left]
      exact ih fun f hf => h f (List.mem_cons_of_mem _ hf)

/-! ## One answer -/

/-- `cboxRecv` holds the bytes `bs`. -/
structure Poll.Holding (p : Poll) (bs : List Byte) : Prop where
  cboxRecv : p.cboxRecv = zeroed bs
  size : p.cboxRecvSize = bs.length
  le : bs.length ≤ buffLen

/-- The bytes that an answer brings. -/
def collected (s : AboxInformation) (p : Poll) (a : Answer) : List Byte :=
  match a.subgRecv with
  | none => []
  | some subgRecv => p.appended (recvPackage s p subgRecv).2.2

/-- A package goes behind what is held. -/
theorem recvPackage_holding (s : AboxInformation) {p : Poll} {bs : List Byte}
    (hp : p.Holding bs) (subgRecv : List Byte) :
    (recvPackage s p subgRecv).2.2.Holding (bs ++ p.appended (recvPackage s p subgRecv).2.2) := by
  have hlen : buffLen ≤ p.cboxRecv.length := by rw [hp.cboxRecv, length_zeroed hp.le]
  have hsame : p.appended p = [] := List.drop_eq_nil_of_le (List.length_take_le ..)
  by_cases hcmd : (CheckPackage2.ofBytes subgRecv).cmd = checkCmd2
  · rw [recvPackage_appended s hlen hcmd]
    unfold recvPackage
    rw [if_pos hcmd]
    generalize (CheckPackage2.ofBytes subgRecv).lenth.toNat = lenth
    dsimp only
    by_cases hfit : p.cboxRecvSize + lenth ≤ buffLen
    · rw [if_pos hfit]
      have hsize := hp.size
      have hbytes : (readN (subgRecv.drop sizeofCheckPackage) lenth).length = lenth :=
        length_readN ..
      by_cases h0 : lenth = 0
      · subst h0
        rw [if_neg fun h => h.2 rfl]
        show p.Holding (bs ++ [])
        rw [List.append_nil]
        exact hp
      · rw [if_pos ⟨hfit, h0⟩]
        generalize readN (subgRecv.drop sizeofCheckPackage) lenth = data at hbytes ⊢
        refine ⟨?_, ?_, ?_⟩
        · dsimp only
          rw [hp.cboxRecv, hsize]
          unfold zeroed
          rw [List.take_left, List.drop_append, List.drop_eq_nil_of_le (by omega),
            List.nil_append, List.drop_replicate, List.append_assoc, List.append_assoc,
            List.length_append]
          refine congrArg _ (congrArg _ (congrArg (List.replicate · 0) ?_))
          omega
        · dsimp only
          rw [List.length_append]
          omega
        · rw [List.length_append]
          omega
    · rw [if_neg hfit, if_neg fun h => hfit h.1, List.append_nil]
      exact hp
  · rw [recvPackage_other s p hcmd, hsame, List.append_nil]
    exact hp

/-- The check behind an answer. -/
theorem check_holding {p : Poll} {bs : List Byte} (hp : p.Holding bs) :
    ∃ fs rest, Scanned bs fs rest ∧ rest.length ≤ buffLen ∧
      checkDataFromSubg true p.cboxRecv p.cboxRecvSize = ⟨zeroed rest, rest.length, fs⟩ := by
  have htake : p.cboxRecv.take p.cboxRecvSize = bs := by
    rw [hp.cboxRecv, hp.size]
    exact List.take_left
  have hzero : p.cboxRecv.drop p.cboxRecvSize =
      List.replicate (buffLen - p.cboxRecvSize) 0 := by
    rw [hp.cboxRecv, hp.size]
    exact List.drop_left
  have hlen : p.cboxRecv.length = buffLen := by rw [hp.cboxRecv, length_zeroed hp.le]
  obtain ⟨fs, rest, hs, -, heq, hsuffix, -⟩ := checkDataFromSubg_exact true p.cboxRecv
    p.cboxRecvSize hlen (by rw [hp.size]; exact hp.le) hzero
  rw [htake] at hs hsuffix
  exact ⟨fs, rest, hs, le_trans hsuffix.length_le hp.le, heq⟩

theorem answered_holding (s : AboxInformation) {p : Poll} {bs : List Byte} (hp : p.Holding bs)
    {a : Answer} (hlink : a.linked = true) : ∃ fs rest, Scanned bs fs rest ∧
      (answered s p a).2.2 = fs ∧ ∀ p', (answered s p a).2.1 = some p' → p'.Holding rest := by
  obtain ⟨fs, rest, hs, hle, heq⟩ := check_holding hp
  refine ⟨fs, rest, hs, ?_⟩
  unfold answered
  rw [hlink, heq]
  dsimp only
  split_ifs
  · exact ⟨rfl, fun p' h => by cases h⟩
  · refine ⟨rfl, fun p' h => ?_⟩
    cases h
    exact ⟨rfl, rfl, hle⟩

theorem unanswered_holding (s : AboxInformation) {p : Poll} {bs : List Byte} (hp : p.Holding bs)
    (hstuck : Scanned bs [] bs) {a : Answer} (hlink : a.linked = true) :
    (unanswered s p a).2.2 = [] ∧ ∀ p', (unanswered s p a).2.1 = some p' → p'.Holding bs := by
  obtain ⟨fs, rest, hs, -, heq⟩ := check_holding hp
  obtain ⟨rfl, -⟩ := scanned_unique hstuck hs
  unfold unanswered
  dsimp only
  split_ifs
  · rw [hlink, heq]
    exact ⟨rfl, fun p' h => by cases h⟩
  · refine ⟨rfl, fun p' h => ?_⟩
    cases h
    exact ⟨hp.cboxRecv, hp.size, hp.le⟩

/-- One answer goes on with the scan. -/
theorem rxData_holding (s : AboxInformation) {p : Poll} {bs : List Byte} (hp : p.Holding bs)
    (hstuck : Scanned bs [] bs) {a : Answer} (hlink : a.linked = true) :
    ∃ fs rest, Scanned (bs ++ collected s p a) fs rest ∧ (rxData s p a).2.2 = fs ∧
      ∀ p', (rxData s p a).2.1 = some p' → p'.Holding rest := by
  unfold rxData collected
  cases hrx : a.subgRecv with
  | none =>
    dsimp only
    rw [List.append_nil]
    exact ⟨[], bs, hstuck, unanswered_holding s hp hstuck hlink⟩
  | some subgRecv =>
    dsimp only
    have hpack := recvPackage_holding s hp subgRecv
    have hother : (CheckPackage2.ofBytes subgRecv).cmd ≠ checkCmd2 →
        (recvPackage s p subgRecv).2.2 = p := recvPackage_other s p
    have hret := recvPackage_ret s p subgRecv
    rcases hrecv : recvPackage s p subgRecv with ⟨ret, t, q⟩
    rw [hrecv] at hpack hother hret
    cases ret with
    | rtEok => exact answered_holding t hpack hlink
    | rtError =>
      have hq : q = p := hother fun hcmd => by
        cases hret.2 (Or.inl hcmd)
      have hsame : p.appended p = [] := List.drop_eq_nil_of_le (List.length_take_le ..)
      dsimp only
      rw [hq, hsame, List.append_nil]
      exact ⟨[], bs, hstuck, unanswered_holding t hp hstuck hlink⟩

/-! ## A whole poll -/

/-- A poll under way, with what it has handed to the server. -/
structure Uplink where
  reception : Reception
  sent : List (List Byte)

namespace Uplink

/-- What an answer leads to; `e.1` is the Cbox table when it comes. -/
def step (u : Uplink) (e : AboxInformation × Answer) : Option Uplink :=
  u.reception.poll.bind fun p =>
    (u.reception.step e).map fun r =>
      { reception := r, sent := u.sent ++ (rxData e.1 p e.2).2.2 }

/-- The event leads from `u` to `u'`; `subgRecv` has `payload_length` bytes. -/
def Step (u : Uplink) (e : AboxInformation × Answer) (u' : Uplink) : Prop :=
  (∀ subgRecv, e.2.subgRecv = some subgRecv → subgRecv.length = payloadLength) ∧
    u.step e = some u'

/-- The scan of all that came in has met the frames that were sent, and has left what is in the
    buffer. -/
def Scans (saved : List Byte) (u : Uplink) : Prop :=
  ∃ rest, Scanned (saved ++ u.reception.appended) u.sent rest ∧
    ∀ p, u.reception.poll = some p → p.Holding rest

/-- The answer comes while the link is up. -/
def Linked (_ : Uplink) (e : AboxInformation × Answer) : Prop := e.2.linked = true

theorem Step.reception {u u' : Uplink} {e : AboxInformation × Answer} (h : u.Step e u') :
    ∃ p, u.reception.poll = some p ∧ u.reception.Step e u'.reception ∧
      u'.sent = u.sent ++ (rxData e.1 p e.2).2.2 := by
  obtain ⟨hlen, h⟩ := h
  obtain ⟨p, hp, h⟩ := Option.bind_eq_some_iff.1 h
  obtain ⟨r, hr, rfl⟩ := Option.map_eq_some_iff.1 h
  exact ⟨p, hp, ⟨hlen, hr⟩, rfl⟩

theorem path_reception {u : Uplink} {tr : List ((AboxInformation × Answer) × Uplink)}
    (h : Path Uplink.Step u tr) : Path Reception.Step u.reception (part Uplink.reception tr) := by
  refine h.part Uplink.reception fun hs => ?_
  obtain ⟨-, -, hstep, -⟩ := hs.reception
  exact hstep

theorem appended_step {r r' : Reception} {e : AboxInformation × Answer} {p : Poll}
    (hp : r.poll = some p) (h : r.step e = some r') :
    r'.appended = r.appended ++ collected e.1 p e.2 := by
  unfold Reception.step at h
  rw [hp, Option.map_some] at h
  unfold collected
  cases hrx : e.2.subgRecv with
  | none =>
    rw [hrx] at h
    cases h
    exact (List.append_nil _).symm
  | some subgRecv =>
    rw [hrx] at h
    dsimp only at h
    split_ifs at h <;> cases h <;> rfl

theorem Scans.step {saved : List Byte} {u u' : Uplink} {e : AboxInformation × Answer}
    (hu : u.Scans saved) (hlink : u.Linked e) (h : u.Step e u') : u'.Scans saved := by
  obtain ⟨p, hp, hstep, hsent⟩ := h.reception
  obtain ⟨rest, hs, hheld⟩ := hu
  obtain ⟨fs, rest', hs', hfs, hheld'⟩ :=
    rxData_holding e.1 (hheld p hp) hs.again (a := e.2) hlink
  refine ⟨rest', ?_, fun p' hp' => hheld' p' ?_⟩
  · rw [appended_step hp hstep.2, hsent, hfs, ← List.append_assoc]
    exact hs.append hs'
  · obtain ⟨q, hq, hpoll⟩ := hstep.poll
    rw [hp] at hq
    cases hq
    rw [← hpoll]
    exact hp'

end Uplink

variable {s : AboxInformation} {send saved : List Byte} {cboxIndex sendSize : ℕ}
  {tr : List ((AboxInformation × Answer) × Uplink)}

/-- At every moment of a poll that starts with the bytes `saved`, while the link is up: what has
    gone to the server are the frames that one scan of `saved` and of all bytes collected since
    then meets, and `cboxRecv` holds what that scan leaves. -/
theorem uplink_scans (hstart : (sendCheckPack s send cboxIndex sendSize).2.Holding saved)
    (hsaved : Scanned saved [] saved)
    (h : Path Uplink.Step ⟨.start (sendCheckPack s send cboxIndex sendSize).2, []⟩ tr)
    (hlink : AllSteps Uplink.Linked ⟨.start (sendCheckPack s send cboxIndex sendSize).2, []⟩ tr) :
    Always (Uplink.Scans saved) ⟨.start (sendCheckPack s send cboxIndex sendSize).2, []⟩ tr := by
  refine h.always_of_steps (Uplink.Scans saved) (fun hu hok hs => hu.step hok hs) ?_ hlink
  refine ⟨saved, ?_, fun p hp => ?_⟩
  · show Scanned (saved ++ []) [] saved
    rw [List.append_nil]
    exact hsaved
  · cases hp
    exact hstart

/-- A poll in which the Cbox brings the list `frames`, cut into fragments in any way, the first
    of them perhaps begun in an earlier poll: if the link is up and every package is `Kept`, the
    frames go to the server, each once and in order, and nothing is left behind. -/
theorem uplink_delivers {frames : List (List Byte)} (hwell : ∀ f ∈ frames, WellFormed f)
    (hstart : (sendCheckPack s send cboxIndex sendSize).2.Holding saved)
    (hsaved : Scanned saved [] saved)
    (h : Path Uplink.Step ⟨.start (sendCheckPack s send cboxIndex sendSize).2, []⟩ tr)
    (hlink : AllSteps Uplink.Linked ⟨.start (sendCheckPack s send cboxIndex sendSize).2, []⟩ tr)
    (hkept : AllSteps (fun u e => u.reception.KeepsPackage e)
      ⟨.start (sendCheckPack s send cboxIndex sendSize).2, []⟩ tr)
    (hframes : saved ++
      (last ⟨.start (sendCheckPack s send cboxIndex sendSize).2, []⟩ tr).reception.fragments =
        frames.flatten) :
    (last ⟨.start (sendCheckPack s send cboxIndex sendSize).2, []⟩ tr).sent = frames ∧
      ∀ p, (last ⟨.start (sendCheckPack s send cboxIndex sendSize).2, []⟩ tr).reception.poll =
        some p → p.Holding [] := by
  obtain ⟨rest, hs, hheld⟩ := (uplink_scans hstart hsaved h hlink).last
  have hpath := Uplink.path_reception h
  have hexact := ((reassembly s send cboxIndex sendSize hpath).2
    ((allSteps_part Uplink.reception).2 hkept)).last
  rw [show Reception.start (sendCheckPack s send cboxIndex sendSize).2 =
    Uplink.reception ⟨.start (sendCheckPack s send cboxIndex sendSize).2, []⟩ from rfl,
    last_part] at hexact
  rw [show _ = _ from hexact, hframes] at hs
  obtain ⟨hsent, hrest⟩ := scanned_unique (scanned_frames hwell) hs
  rw [← hrest]
  exact ⟨hsent, hheld⟩

/-- A frame with two bytes of data. -/
def dataFrame : List Byte := [0x23, 0x20, 2, 0, 0, 0, 2, 0, 0x41, 0x42, 0x28, 0xA3]

theorem wellFormed_dataFrame : WellFormed dataFrame :=
  ⟨by decide, by decide, by decide, by decide, by decide +kernel⟩

/-- Two Cboxes; five bytes are saved for each of them, those of the second one at the address 5. -/
def twoSaved : AboxInformation :=
  saveCboxRecv (saveCboxRecv (addCbox oneCbox fun _ => 2).2 0 (exampleFrame ++ dataFrame) 5) 1
    (exampleFrame.take 5) 5

/-- The rest of a frame and a whole one, in two packages; the second one is waited for twice. -/
def twoFrames : List (AboxInformation × Answer) :=
  [some (examplePackage true 7 (exampleFrame.drop 5 ++ dataFrame.take 3)), none,
    some (examplePackage true 8 (dataFrame.drop 3))].map
      fun subgRecv => (twoSaved, ⟨subgRecv, 0, true⟩)

theorem length_twoFrames : ∀ e ∈ twoFrames, ∀ subgRecv ∈ e.2.subgRecv,
    subgRecv.length = payloadLength := by
  decide

theorem holding_twoSaved : (sendCheckPack twoSaved [] 1 0).2.Holding (exampleFrame.take 5) :=
  ⟨by decide +kernel, by decide +kernel, by decide⟩

theorem uplink_delivers_twoFrames : ∃ tr,
    exec Uplink.step ⟨.start (sendCheckPack twoSaved [] 1 0).2, []⟩ twoFrames = some tr ∧
      (last ⟨.start (sendCheckPack twoSaved [] 1 0).2, []⟩ tr).sent =
        [exampleFrame, dataFrame] := by
  obtain ⟨tr, htr, hfragments, hlen, hfit, hnew⟩ := exists_exec (P := fun tr =>
      (last ⟨.start (sendCheckPack twoSaved [] 1 0).2, []⟩ tr).reception.fragments =
        exampleFrame.drop 5 ++ dataFrame ∧
      (∀ c ∈ Reception.packages (part Uplink.reception tr), c.lenth.toNat ≤ dataLengthMax) ∧
      5 + ((Reception.packages (part Uplink.reception tr)).map fun c => c.lenth.toNat).sum ≤
        buffLen ∧
      ((Reception.packages (part Uplink.reception tr)).map CheckPackage2.cboxPackNum).IsChain
        (· ≠ ·))
    (show (exec Uplink.step ⟨.start (sendCheckPack twoSaved [] 1 0).2, []⟩ twoFrames).any _ = true
      by decide +kernel)
  have hpath : Path Uplink.Step ⟨.start (sendCheckPack twoSaved [] 1 0).2, []⟩ tr :=
    exec_path_of (fun hlen hs => ⟨hlen, hs⟩) length_twoFrames htr
  have hlinked : ∀ e ∈ twoFrames, e.2.linked = true := by decide
  have hlink : AllSteps Uplink.Linked ⟨.start (sendCheckPack twoSaved [] 1 0).2, []⟩ tr :=
    exec_allSteps (fun e he _ => hlinked e he) htr
  have hstart : (Reception.start (sendCheckPack twoSaved [] 1 0).2).AtMost 5 := by
    rintro p ⟨⟩
    exact holding_twoSaved.size.le
  have hkept := Reception.keepsPackage_of_new (Uplink.path_reception hpath) hstart hlen hfit hnew
  have hwell : ∀ f ∈ [exampleFrame, dataFrame], WellFormed f := by
    simp [wellFormed_exampleFrame, wellFormed_dataFrame]
  have hframes : exampleFrame.take 5 ++ (exampleFrame.drop 5 ++ dataFrame) =
      [exampleFrame, dataFrame].flatten := rfl
  rw [← hfragments] at hframes
  have hsaved : Scanned (exampleFrame.take 5) [] (exampleFrame.take 5) :=
    .wait (show IsHead _ by decide) (by decide) (by decide)
  exact ⟨tr, htr, (uplink_delivers hwell holding_twoSaved hsaved hpath hlink
    ((allSteps_part Uplink.reception).1 hkept) hframes).1⟩

end Abox.Radio
