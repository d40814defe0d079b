import Abox.Lib.Runs
import Abox.Radio.Poll

/-!
# Putting the fragments of a Cbox together

In a poll the Cbox sends its own data in `CHECK_CMD2` packages, numbered by
`cboxPackNum`; a package whose answer got lost comes again under the same number.
`sendCheckPack` collects the data in `cboxRecv`. It does not look at the number, it
copies as many bytes as `lenth` says, and it answers a package whose data no longer
fits without keeping any of it.

A `Reception` is a poll with what it has appended to `cboxRecv` and what it should
have: the data of every package that was answered, a repeated one left out.

* `recvPackage_appended`: the bytes that one package appends.
* `reassembly`: in every poll the two are the same throughout exactly when every
  package is `Kept`.
-/

namespace Abox.Radio

open Runs

/-! ## One package -/

/-- The data of a package, as far as it lies inside of it. -/
def packageData (subgRecv : List Byte) : List Byte :=
  (subgRecv.drop sizeofCheckPackage).take (CheckPackage2.ofBytes subgRecv).lenth.toNat

/-- The bytes of `cboxRecv` behind those of `p`. -/
def Poll.appended (p p' : Poll) : List Byte :=
  (p'.cboxRecv.take p'.cboxRecvSize).drop p.cboxRecvSize

/-- All of the data of the package is kept, and only that: there is none; or the
    package has come before and its data does not fit; or it is the first of its
    number, its data lies inside of it, and fits. -/
def Kept (lastPackNum : Option Byte) (p : Poll) (checkPack2 : CheckPackage2) : Prop :=
  checkPack2.lenth = 0 ∨
    if lastPackNum = some checkPack2.cboxPackNum then
      buffLen < p.cboxRecvSize + checkPack2.lenth.toNat
    else
      checkPack2.lenth.toNat ≤ dataLengthMax ∧
        p.cboxRecvSize + checkPack2.lenth.toNat ≤ buffLen

/-- What other packages contain is not looked at. -/
theorem recvPackage_other (s : AboxInformation) (p : Poll) {subgRecv : List Byte}
    (h : (CheckPackage2.ofBytes subgRecv).cmd ≠ checkCmd2) :
    (recvPackage s p subgRecv).2.2 = p := by
  simp only [recvPackage]
  rw [if_neg h]
  split_ifs <;> rfl

/-- The bytes that a `CHECK_CMD2` package appends; those before them stay. -/
theorem recvPackage_appended (s : AboxInformation) {p : Poll} (hp : buffLen ≤ p.cboxRecv.length)
    {subgRecv : List Byte} (h : (CheckPackage2.ofBytes subgRecv).cmd = checkCmd2) :
    p.appended (recvPackage s p subgRecv).2.2 =
      if p.cboxRecvSize + (CheckPackage2.ofBytes subgRecv).lenth.toNat ≤ buffLen then
        readN (subgRecv.drop sizeofCheckPackage) (CheckPackage2.ofBytes subgRecv).lenth.toNat
      else [] := by
  have hnone : (p.cboxRecv.take p.cboxRecvSize).drop p.cboxRecvSize = [] :=
    List.drop_eq_nil_of_le (List.length_take_le ..)
  unfold recvPackage Poll.appended
  rw [if_pos h]
  generalize (CheckPackage2.ofBytes subgRecv).lenth.toNat = lenth
  by_cases hfit : p.cboxRecvSize + lenth ≤ buffLen
  · rw [if_pos hfit]
    by_cases h0 : lenth = 0
    · subst h0
      rw [if_neg (fun h => h.2 rfl)]
      exact hnone
    · rw [if_pos ⟨hfit, h0⟩]
      have hbefore : (p.cboxRecv.take p.cboxRecvSize).length = p.cboxRecvSize := by
        rw [List.length_take]
        omega
      show List.drop p.cboxRecvSize (List.take (p.cboxRecvSize + lenth) (_ ++ _ ++ _)) = _
      rw [List.take_left' (by rw [List.length_append, hbefore, length_readN]),
        List.drop_left' hbefore]
  · rw [if_neg hfit, if_neg (fun h => hfit h.1)]
    exact hnone

/-- A package appends its data, or nothing if it came before, exactly if it is `Kept`. -/
theorem appended_iff (s : AboxInformation) {p : Poll} (hp : buffLen ≤ p.cboxRecv.length)
    {subgRecv : List Byte} (hlen : subgRecv.length = payloadLength)
    (h : (CheckPackage2.ofBytes subgRecv).cmd = checkCmd2) (lastPackNum : Option Byte) :
    p.appended (recvPackage s p subgRecv).2.2 =
      (if lastPackNum = some (CheckPackage2.ofBytes subgRecv).cboxPackNum then []
      else packageData subgRecv) ↔ Kept lastPackNum p (CheckPackage2.ofBytes subgRecv) := by
  rw [recvPackage_appended s hp h]
  have hzero : (CheckPackage2.ofBytes subgRecv).lenth = 0 ↔
      (CheckPackage2.ofBytes subgRecv).lenth.toNat = 0 := by
    rw [← BitVec.toNat_inj]
    rfl
  have hdata : (subgRecv.drop sizeofCheckPackage).length = dataLengthMax := by
    rw [List.length_drop, hlen]
    rfl
  unfold Kept packageData
  rw [hzero]
  generalize (CheckPackage2.ofBytes subgRecv).lenth.toNat = lenth
  generalize subgRecv.drop sizeofCheckPackage = data at hdata
  by_cases hrep : lastPackNum = some (CheckPackage2.ofBytes subgRecv).cboxPackNum
  · -- the package has come before: nothing may be appended
    rw [if_pos hrep, if_pos hrep]
    by_cases hfit : p.cboxRecvSize + lenth ≤ buffLen
    · rw [if_pos hfit, ← List.length_eq_zero_iff, length_readN]
      omega
    · rw [if_neg hfit]
      exact iff_of_true rfl (Or.inr (Nat.lt_of_not_le hfit))
  · rw [if_neg hrep, if_neg hrep]
    by_cases hfit : p.cboxRecvSize + lenth ≤ buffLen
    · rw [if_pos hfit]
      constructor
      · intro heq
        have hle := congrArg List.length heq
        rw [length_readN, List.length_take, hdata] at hle
        exact Or.inr ⟨by omega, hfit⟩
      · intro hkept
        exact readN_of_le (by omega)
    · -- the data does not fit: nothing is appended
      rw [if_neg hfit, eq_comm, List.take_eq_nil_iff, ← List.length_eq_zero_iff, hdata]
      have hmax : dataLengthMax ≠ 0 := by decide
      tauto

/-! ## Buffers of at least `BUFF_LEN` bytes -/

theorem recvPackage_length (s : AboxInformation) {p : Poll} (hp : buffLen ≤ p.cboxRecv.length)
    (subgRecv : List Byte) : buffLen ≤ (recvPackage s p subgRecv).2.2.cboxRecv.length := by
  simp only [recvPackage]
  split_ifs with hcmd hfit
  · show buffLen ≤ (_ ++ _ ++ _ : List Byte).length
    rw [List.length_append, List.length_append, List.length_take, length_readN, List.length_drop]
    omega
  all_goals exact hp

theorem SubgBuff.skip_length (s : SubgBuff) : s.skip.checkBuff.length = s.checkBuff.length := by
  induction s using SubgBuff.skip.induct with
  | case1 s h ih =>
    rw [SubgBuff.skip, if_pos h]
    exact ih.trans (length_dataLeft ..)
  | case2 s h => rw [SubgBuff.skip, if_neg h]

theorem SubgBuff.scan_length (linked : Bool) (s : SubgBuff) :
    (s.scan linked).checkBuff.length = s.checkBuff.length := by
  fun_induction SubgBuff.scan linked s with
  | case1 s s1 h0 => exact List.length_replicate.trans s.skip_length
  | case2 s s1 h0 cmdLen hbig ih => exact ih.trans (List.length_set.trans s.skip_length)
  | case3 s s1 h0 cmdLen hbig hlen hcrc ih =>
    exact ih.trans ((length_dataLeft ..).trans s.skip_length)
  | case4 s s1 h0 cmdLen hbig hlen hcrc ih => exact ih.trans (List.length_set.trans s.skip_length)
  | case5 s => exact s.skip_length

theorem checkDataFromSubg_length (linked : Bool) (checkBuff : List Byte) (n : ℕ) :
    (checkDataFromSubg linked checkBuff n).checkBuff.length = checkBuff.length := by
  unfold checkDataFromSubg
  split_ifs
  · rfl
  · exact SubgBuff.scan_length linked _

theorem processExistingData_length (s : AboxInformation) (i : ℕ) :
    buffLen ≤ (processExistingData s i (List.replicate buffLen 0)).1.length := by
  have hbuff : buffLen ≤ (List.replicate buffLen (0 : Byte)).length :=
    List.length_replicate.symm.le
  simp only [processExistingData]
  split_ifs
  · exact hbuff
  · exact hbuff
  · split
    · show buffLen ≤ (_ ++ _ : List Byte).length
      rw [List.length_append, List.length_replicate]
      omega
    · exact hbuff

theorem answered_length {s s' : AboxInformation} {p p' : Poll} (hp : buffLen ≤ p.cboxRecv.length)
    {a : Answer} {sent : List (List Byte)} (h : answered s p a = (s', some p', sent)) :
    buffLen ≤ p'.cboxRecv.length := by
  simp only [answered] at h
  split_ifs at h
  · cases h
  · cases h
    exact hp.trans_eq (checkDataFromSubg_length ..).symm

theorem unanswered_length {s s' : AboxInformation} {p p' : Poll}
    (hp : buffLen ≤ p.cboxRecv.length) {a : Answer} {sent : List (List Byte)}
    (h : unanswered s p a = (s', some p', sent)) : buffLen ≤ p'.cboxRecv.length := by
  simp only [unanswered] at h
  split_ifs at h
  · cases h
  · cases h
    exact hp

theorem rxData_length {s s' : AboxInformation} {p p' : Poll} (hp : buffLen ≤ p.cboxRecv.length)
    {a : Answer} {sent : List (List Byte)} (h : rxData s p a = (s', some p', sent)) :
    buffLen ≤ p'.cboxRecv.length := by
  unfold rxData at h
  cases hrx : a.subgRecv with
  | none =>
    rw [hrx] at h
    exact unanswered_length hp h
  | some subgRecv =>
    have hq := recvPackage_length s hp subgRecv
    rw [hrx] at h
    rcases hpack : recvPackage s p subgRecv with ⟨ret, t, q⟩
    rw [hpack] at hq
    simp only [hpack] at h
    cases ret with
    | rtEok => exact answered_length hq h
    | rtError => exact unanswered_length hq h

theorem sendCheckPack_length (s : AboxInformation) (send : List Byte) (i n : ℕ) :
    buffLen ≤ (sendCheckPack s send i n).2.cboxRecv.length := processExistingData_length ..

/-! ## A whole poll -/

/-- A poll under way, the number of its last `CHECK_CMD2` package, the bytes
    appended to `cboxRecv` so far, and those of the answered fragments. -/
structure Reception where
  poll : Option Poll
  lastPackNum : Option Byte
  appended : List Byte
  fragments : List Byte

namespace Reception

/-- Before the first answer. -/
def start (p : Poll) : Reception := ⟨some p, none, [], []⟩

/-- What an answer leads to; `s` is the Cbox table when it comes. -/
def step (r : Reception) (e : AboxInformation × Answer) : Option Reception :=
  r.poll.map fun p =>
    let poll := (rxData e.1 p e.2).2.1
    match e.2.subgRecv with
    | none => { r with poll := poll }
    | some subgRecv =>
      let (ret, _, p') := recvPackage e.1 p subgRecv
      let checkPack2 := CheckPackage2.ofBytes subgRecv
      if checkPack2.cmd = checkCmd2 then
        { poll := poll
          lastPackNum := some checkPack2.cboxPackNum
          appended := r.appended ++ p.appended p'
          fragments :=
            if ret = .rtEok ∧ r.lastPackNum ≠ some checkPack2.cboxPackNum then
              r.fragments ++ packageData subgRecv
            else r.fragments }
      else { r with poll := poll, appended := r.appended ++ p.appended p' }

/-- The event leads from `r` to `r'`; `subgRecv` has `payload_length` bytes. -/
def Step (r : Reception) (e : AboxInformation × Answer) (r' : Reception) : Prop :=
  (∀ subgRecv, e.2.subgRecv = some subgRecv → subgRecv.length = payloadLength) ∧
    r.step e = some r'

/-- Each fragment has been appended once, in order, and nothing else. -/
def Exact (r : Reception) : Prop := r.appended = r.fragments

/-- The package that comes, if any, is `Kept`. -/
def KeepsPackage (r : Reception) (e : AboxInformation × Answer) : Prop :=
  ∀ p subgRecv, r.poll = some p → e.2.subgRecv = some subgRecv →
    (CheckPackage2.ofBytes subgRecv).cmd = checkCmd2 →
    Kept r.lastPackNum p (CheckPackage2.ofBytes subgRecv)

/-- `cboxRecv` is a buffer of `BUFF_LEN` bytes at least. -/
def Buffered (r : Reception) : Prop := ∀ p, r.poll = some p → buffLen ≤ p.cboxRecv.length

theorem buffered_start (s : AboxInformation) (send : List Byte) (i n : ℕ) :
    (start (sendCheckPack s send i n).2).Buffered := by
  intro p hp
  obtain rfl := Option.some.inj hp
  exact sendCheckPack_length s send i n

/-- What a poll goes on with. -/
theorem Step.poll {r r' : Reception} {e : AboxInformation × Answer} (h : r.Step e r') :
    ∃ p, r.poll = some p ∧ r'.poll = (rxData e.1 p e.2).2.1 := by
  obtain ⟨p, hp, rfl⟩ := Option.map_eq_some_iff.1 h.2
  refine ⟨p, hp, ?_⟩
  cases e.2.subgRecv with
  | none => rfl
  | some subgRecv =>
    dsimp only
    split_ifs <;> rfl

theorem Step.buffered {r r' : Reception} {e : AboxInformation × Answer} (hr : r.Buffered)
    (h : r.Step e r') : r'.Buffered := by
  obtain ⟨p, hp, hpoll⟩ := h.poll
  intro p' hp'
  rw [hpoll] at hp'
  exact rxData_length (hr p hp) (Prod.ext rfl (Prod.ext hp' rfl))

/-- One answer keeps the reception exact exactly if its package is `Kept`. -/
theorem Step.exact_iff {r r' : Reception} {e : AboxInformation × Answer} (hr : r.Buffered)
    (hexact : r.Exact) (h : r.Step e r') : r'.Exact ↔ r.KeepsPackage e := by
  obtain ⟨hlen, hstep⟩ := h
  obtain ⟨p, hp, rfl⟩ := Option.map_eq_some_iff.1 hstep
  unfold KeepsPackage Exact
  cases hrx : e.2.subgRecv with
  | none => exact iff_of_true hexact fun _ _ _ h => nomatch h
  | some subgRecv =>
    by_cases hcmd : (CheckPackage2.ofBytes subgRecv).cmd = checkCmd2
    · have hret : (recvPackage e.1 p subgRecv).1 = .rtEok :=
        (recvPackage_ret ..).2 (Or.inl hcmd)
      have hiff := appended_iff e.1 (hr p hp) (hlen _ hrx) hcmd r.lastPackNum
      have hkept : (∀ p' bs, r.poll = some p' → some subgRecv = some bs →
          (CheckPackage2.ofBytes bs).cmd = checkCmd2 →
          Kept r.lastPackNum p' (CheckPackage2.ofBytes bs)) ↔
          Kept r.lastPackNum p (CheckPackage2.ofBytes subgRecv) := by
        constructor
        · intro h
          exact h p subgRecv hp rfl hcmd
        · rintro h p' bs hp' ⟨⟩ -
          obtain rfl := Option.some.inj (hp.symm.trans hp')
          exact h
      rw [hkept, ← hiff]
      simp only [if_pos hcmd, hret, true_and, ne_eq, ite_not]
      show r.appended ++ _ = _ ↔ _
      rw [show r.appended = r.fragments from hexact]
      by_cases hrep : r.lastPackNum = some (CheckPackage2.ofBytes subgRecv).cboxPackNum
      · rw [if_pos hrep, if_pos hrep, List.append_right_eq_self]
      · rw [if_neg hrep, if_neg hrep, List.append_cancel_left_eq]
    · refine iff_of_true ?_ ?_
      · have hnone : p.appended (recvPackage e.1 p subgRecv).2.2 = [] := by
          rw [recvPackage_other e.1 p hcmd]
          exact List.drop_eq_nil_of_le (List.length_take_le ..)
        simp only [if_neg hcmd, hnone, List.append_nil]
        exact hexact
      · rintro _ bs _ ⟨⟩ h
        exact absurd h hcmd

end Reception

/-- For every poll, whatever the Cbox table is when an answer comes: each answered
    fragment is appended once, in order, and nothing else, throughout exactly when
    every package is `Kept`. -/
theorem reassembly (s : AboxInformation) (send : List Byte) (cboxIndex sendSize : ℕ)
    {tr : List ((AboxInformation × Answer) × Reception)}
    (h : Path Reception.Step (.start (sendCheckPack s send cboxIndex sendSize).2) tr) :
    Always Reception.Exact (.start (sendCheckPack s send cboxIndex sendSize).2) tr ↔
      AllSteps Reception.KeepsPackage (.start (sendCheckPack s send cboxIndex sendSize).2) tr :=
  h.always_iff Reception.Buffered Reception.Exact (fun hr hs => hs.buffered hr)
    (fun hr hexact hs => hs.exact_iff hr hexact)
    (Reception.buffered_start s send cboxIndex sendSize) rfl

/-! ## Packages that are kept -/

/-- The `CHECK_CMD2` package of an answer. -/
def Answer.package (a : Answer) : Option CheckPackage2 :=
  (a.subgRecv.map CheckPackage2.ofBytes).filter fun checkPack2 => checkPack2.cmd = checkCmd2

/-- The number of bytes it says it has. -/
def Answer.packageSize (a : Answer) : ℕ := (a.package.map fun c => c.lenth.toNat).getD 0

theorem package_of_cmd {a : Answer} {subgRecv : List Byte} (hrecv : a.subgRecv = some subgRecv)
    (hcmd : (CheckPackage2.ofBytes subgRecv).cmd = checkCmd2) :
    a.package = some (CheckPackage2.ofBytes subgRecv) := by
  unfold Answer.package
  rw [hrecv, Option.map_some, Option.filter_some, if_pos (decide_eq_true hcmd)]

theorem package_of_not {a : Answer} (h : ∀ subgRecv, a.subgRecv = some subgRecv →
    (CheckPackage2.ofBytes subgRecv).cmd ≠ checkCmd2) : a.package = none := by
  unfold Answer.package
  cases hrecv : a.subgRecv with
  | none => rfl
  | some subgRecv =>
    rw [Option.map_some, Option.filter_some, if_neg (by simpa using h subgRecv hrecv)]

/-- The scan takes bytes out, so a poll grows by the bytes of a package at most. -/
theorem rxData_size (s : AboxInformation) {p p' : Poll} {a : Answer}
    (h : (rxData s p a).2.1 = some p') : p'.cboxRecvSize ≤ p.cboxRecvSize + a.packageSize := by
  have hanswered : ∀ (t : AboxInformation) (q : Poll), (answered t q a).2.1 = some p' →
      p'.cboxRecvSize ≤ q.cboxRecvSize := by
    intro t q hq
    simp only [answered] at hq
    split_ifs at hq
    cases hq
    exact checkDataFromSubg_checkLen ..
  have hunanswered : ∀ (t : AboxInformation) (q : Poll), (unanswered t q a).2.1 = some p' →
      p'.cboxRecvSize ≤ q.cboxRecvSize := by
    intro t q hq
    simp only [unanswered] at hq
    split_ifs at hq
    cases hq
    exact le_rfl
  unfold rxData at h
  cases hrecv : a.subgRecv with
  | none =>
    rw [hrecv] at h
    exact le_trans (hunanswered s p h) (Nat.le_add_right _ _)
  | some subgRecv =>
    have hq : (recvPackage s p subgRecv).2.2.cboxRecvSize ≤ p.cboxRecvSize + a.packageSize := by
      by_cases hcmd : (CheckPackage2.ofBytes subgRecv).cmd = checkCmd2
      · unfold Answer.packageSize recvPackage
        rw [package_of_cmd hrecv hcmd, if_pos hcmd]
        dsimp only
        split_ifs
        · exact le_rfl
        · exact Nat.le_add_right _ _
      · rw [recvPackage_other s p hcmd]
        exact Nat.le_add_right _ _
    rw [hrecv] at h
    rcases hpack : recvPackage s p subgRecv with ⟨ret, t, q⟩
    rw [hpack] at hq
    simp only [hpack] at h
    cases ret with
    | rtEok => exact le_trans (hanswered t q h) hq
    | rtError => exact le_trans (hunanswered t q h) hq

namespace Reception

/-- A poll under way has collected `n` bytes at most. -/
def AtMost (n : ℕ) (r : Reception) : Prop := ∀ p, r.poll = some p → p.cboxRecvSize ≤ n

theorem AtMost.step {n : ℕ} {r r' : Reception} {e : AboxInformation × Answer} (hr : r.AtMost n)
    (h : r.Step e r') : r'.AtMost (n + e.2.packageSize) := by
  obtain ⟨p, hp, hpoll⟩ := h.poll
  intro p' hp'
  rw [hp', eq_comm] at hpoll
  have hsize := rxData_size e.1 hpoll
  have hn := hr p hp
  omega

theorem lastPackNum_step {r r' : Reception} {e : AboxInformation × Answer} (h : r.Step e r') :
    r'.lastPackNum = (e.2.package.map CheckPackage2.cboxPackNum).or r.lastPackNum := by
  obtain ⟨p, -, hr⟩ := Option.map_eq_some_iff.1 h.2
  cases hrecv : e.2.subgRecv with
  | none =>
    have hnone : e.2.package = none := package_of_not fun subgRecv hsome => by
      rw [hrecv] at hsome
      cases hsome
    rw [hrecv] at hr
    rw [hnone, ← hr]
    rfl
  | some subgRecv =>
    rw [hrecv] at hr
    by_cases hcmd : (CheckPackage2.ofBytes subgRecv).cmd = checkCmd2
    · rw [package_of_cmd hrecv hcmd, ← hr]
      simp only [hcmd, if_true]
      rfl
    · have hother : e.2.package = none := package_of_not fun bs hbs => by
        rw [hrecv] at hbs
        cases hbs
        exact hcmd
      rw [hother, ← hr]
      simp only [hcmd, if_false]
      rfl

/-- The packages of a run. -/
def packages (tr : List ((AboxInformation × Answer) × Reception)) : List CheckPackage2 :=
  tr.filterMap fun e => e.1.2.package

/-- Packages are kept that are no longer than they can be, that fit into `cboxRecv` all together,
    and of which none has the number of the one before. -/
theorem keepsPackage_of_new {r : Reception} {tr : List ((AboxInformation × Answer) × Reception)}
    (h : Path Reception.Step r tr) {n : ℕ} (hr : r.AtMost n)
    (hlen : ∀ c ∈ packages tr, c.lenth.toNat ≤ dataLengthMax)
    (hfit : n + ((packages tr).map fun c => c.lenth.toNat).sum ≤ buffLen)
    (hnew : (r.lastPackNum.toList ++ (packages tr).map CheckPackage2.cboxPackNum).IsChain (· ≠ ·)) :
    AllSteps KeepsPackage r tr := by
  induction h generalizing n with
  | nil r => trivial
  | @cons r r' e tr hs _ ih =>
    have hlast := lastPackNum_step hs
    have hmost := hr.step hs
    cases hpackage : e.2.package with
    | none =>
      have htr : packages ((e, r') :: tr) = packages tr := List.filterMap_cons_none hpackage
      rw [htr] at hlen hfit hnew
      rw [hpackage] at hlast
      unfold Answer.packageSize at hmost
      rw [hpackage] at hmost
      refine ⟨fun p subgRecv _ hrecv hcmd => ?_, ih hmost hlen hfit (by rw [hlast]; exact hnew)⟩
      rw [package_of_cmd hrecv hcmd] at hpackage
      cases hpackage
    | some c =>
      have htr : packages ((e, r') :: tr) = c :: packages tr := List.filterMap_cons_some hpackage
      rw [htr] at hlen hfit hnew
      rw [List.map_cons, List.sum_cons] at hfit
      rw [hpackage] at hlast
      unfold Answer.packageSize at hmost
      rw [hpackage] at hmost
      obtain ⟨-, htail⟩ := List.isChain_append.1 hnew
      refine ⟨fun p subgRecv hp hrecv hcmd => ?_, ih hmost (fun c' hc' => hlen c' (by simp [hc']))
        (by rw [← Nat.add_assoc] at hfit; exact hfit) (by rw [hlast]; exact htail.1)⟩
      rw [package_of_cmd hrecv hcmd] at hpackage
      obtain rfl := Option.some.inj hpackage
      have hne : r.lastPackNum ≠ some (CheckPackage2.ofBytes subgRecv).cboxPackNum := by
        intro heq
        rw [heq] at hnew
        simp at hnew
      have hsize := hr p hp
      refine Or.inr ?_
      rw [if_neg hne]
      exact ⟨hlen _ (by simp), by omega⟩

end Reception

/-! ## Two polls -/

/-- A table with one Cbox. -/
def oneCbox : AboxInformation := (addCbox initAboxInformation fun _ => 1).2

/-- A `CHECK_CMD2` package with the number `num`; there is more to come if `more`. -/
def examplePackage (more : Bool) (num : Byte) (data : List Byte) : List Byte :=
  [0, 0, 0, 0, if more then 0x16 else 0x14, num, BitVec.ofNat 8 data.length] ++ data ++
    List.replicate (payloadLength - 7 - data.length) 0

/-- Three packages, one that is no answer, and a wait in vain. -/
def threePackages : List (AboxInformation × Answer) :=
  [some (examplePackage true 7 [0x31, 0x32, 0x33]), none, some (examplePackage true 8 [0x34]),
    some (List.replicate 64 0), some (examplePackage false 9 [0x35, 0x36])].map
      fun subgRecv => (oneCbox, ⟨subgRecv, 0, true⟩)

theorem length_threePackages : ∀ e ∈ threePackages, ∀ subgRecv ∈ e.2.subgRecv,
    subgRecv.length = payloadLength := by
  decide

theorem atMost_start : (Reception.start (sendCheckPack oneCbox [] 0 0).2).AtMost 0 := by
  rintro p ⟨⟩
  exact le_rfl

theorem reassembly_threePackages : ∃ tr,
    Path Reception.Step (.start (sendCheckPack oneCbox [] 0 0).2) tr ∧
      (last (.start (sendCheckPack oneCbox [] 0 0).2) tr).fragments =
        [0x31, 0x32, 0x33, 0x34, 0x35, 0x36] ∧
      Always Reception.Exact (.start (sendCheckPack oneCbox [] 0 0).2) tr := by
  obtain ⟨tr, htr, hfragments, hlen, hfit, hnew⟩ := exists_exec (P := fun tr =>
      (last (.start (sendCheckPack oneCbox [] 0 0).2) tr).fragments =
        [0x31, 0x32, 0x33, 0x34, 0x35, 0x36] ∧
      (∀ c ∈ Reception.packages tr, c.lenth.toNat ≤ dataLengthMax) ∧
      0 + ((Reception.packages tr).map fun c => c.lenth.toNat).sum ≤ buffLen ∧
      ((Reception.packages tr).map CheckPackage2.cboxPackNum).IsChain (· ≠ ·))
    (show (exec Reception.step (.start (sendCheckPack oneCbox [] 0 0).2) threePackages).any _ =
      true by decide +kernel)
  have hpath : Path Reception.Step (.start (sendCheckPack oneCbox [] 0 0).2) tr :=
    exec_path_of (fun hlen hs => ⟨hlen, hs⟩) length_threePackages htr
  exact ⟨tr, hpath, hfragments, (reassembly oneCbox [] 0 0 hpath).2
    (Reception.keepsPackage_of_new hpath atMost_start hlen hfit hnew)⟩

/-- Package 7, with one byte of data, and more to come. -/
def packageSeven : List Byte :=
  [0, 0, 0, 0, 0x16, 7, 1, 0x31] ++ List.replicate 56 0

/-- The package comes in time. -/
def answerSeven : Answer := ⟨some packageSeven, 0, true⟩

/-- The first package of the poll is taken, and the poll goes on. -/
theorem start_seven : ∃ r p, Reception.Step (.start (sendCheckPack oneCbox [] 0 0).2)
    (oneCbox, answerSeven) r ∧ r.lastPackNum = some 7 ∧ r.poll = some p ∧ p.cboxRecvSize ≤ 1 := by
  have hlen : ∀ subgRecv, answerSeven.subgRecv = some subgRecv →
      subgRecv.length = payloadLength := by
    rintro subgRecv ⟨⟩
    rfl
  have hstep : Reception.Step (.start (sendCheckPack oneCbox [] 0 0).2) (oneCbox, answerSeven) _ :=
    ⟨hlen, rfl⟩
  obtain ⟨p, hp⟩ : ∃ p, (rxData oneCbox (sendCheckPack oneCbox [] 0 0).2 answerSeven).2.1 =
      some p := ⟨_, rfl⟩
  exact ⟨_, p, hstep, rfl, hp, atMost_start.step hstep p hp⟩

/-- The answer to package 7 is lost and the package comes again. -/
theorem reassembly_lost : ∃ tr,
    Path Reception.Step (.start (sendCheckPack oneCbox [] 0 0).2) tr ∧
      ¬ Always Reception.Exact (.start (sendCheckPack oneCbox [] 0 0).2) tr := by
  obtain ⟨r, p, hr, hnum, hpoll, hsize⟩ := start_seven
  have hlen := hr.1
  have hr' : r.Step (oneCbox, answerSeven) _ := ⟨hlen, by unfold Reception.step; rw [hpoll]; rfl⟩
  refine ⟨_, .cons hr (.cons hr' (.nil _)), ?_⟩
  rintro ⟨-, hexact, hexact'⟩
  have hbuffered := hr.buffered (Reception.buffered_start oneCbox [] 0 0)
  have hkeeps := (hr'.exact_iff hbuffered hexact).1 hexact'
  have hkept := hkeeps p packageSeven hpoll rfl rfl
  have hrep : some 7 = some (CheckPackage2.ofBytes packageSeven).cboxPackNum := rfl
  unfold Kept at hkept
  rw [hnum, if_pos hrep] at hkept
  rcases hkept with h0 | hfull
  · exact absurd h0 (by decide)
  · have hone : (CheckPackage2.ofBytes packageSeven).lenth.toNat = 1 := rfl
    have hbuff : buffLen = 1024 := rfl
    omega

end Abox.Radio
