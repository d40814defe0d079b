import Abox.Dictionary.Info
import Abox.Server.Chunking

/-!
# Dictionary commands

Model of `recv_dic_cmd` (`applications/dictionary.c` lines 403–452), which takes a
`TCMD_121` frame to the function of its scmd, and of `del_smd2_func` (lines 296–308)
and `del_smd5_func` (lines 392–396). After its reply `del_smd4_func` closes the
connection and reboots.

* `rt_strcmp_eq_zero_iff`: what `del_smd2_func` compares are zero-terminated strings.
-/

namespace Abox.Dictionary

open Server Config Update

/-- `TCMD_121` (`mydef.h` line 106). -/
def tcmd121 : Byte := 121

/-- `TCMD_121_SCMD` (`dictionary.h` lines 47–54). -/
def tcmd121ScmdReboot : BitVec 16 := 2
def tcmd121ScmdTelnet : BitVec 16 := 3
def tcmd121ScmdServerPoll : BitVec 16 := 5

/-- The scmd of a frame. -/
def frameScmd (frame : List Byte) : BitVec 16 := u16At frame sizeofStPackCmd

/-- `rev` is the buffer into which a `TCMD_121` frame has been received from `A_STOA_MQ`, a
    frame that the parser accepts: the whole slot of the message, with any bytes behind the
    frame. The given scmd is what is read there, also when the frame ends before. -/
structure Received (scmd : BitVec 16) (frame rev : List Byte) : Prop where
  accepted : verdict frame = .frame frame.length
  cmd : (StPackCmd.ofBytes frame).cmd = tcmd121
  front : frame <+: rev
  length_eq : rev.length = buffLen
  scmd : frameScmd rev = scmd

theorem u16At_append {frame : List Byte} {k : ℕ} (h : k + 2 ≤ frame.length) (slot : List Byte) :
    u16At (frame ++ slot) k = u16At frame k := by
  unfold u16At
  rw [getD_append_of_lt (by omega), getD_append_of_lt (by omega)]

theorem u32At_append {frame : List Byte} {k : ℕ} (h : k + 4 ≤ frame.length) (slot : List Byte) :
    u32At (frame ++ slot) k = u32At frame k := by
  unfold u32At
  rw [u16At_append (by omega), u16At_append (by omega)]

theorem Received.length_le {scmd : BitVec 16} {frame rev : List Byte}
    (h : Received scmd frame rev) : frame.length ≤ buffLen :=
  h.length_eq ▸ h.front.length_le

/-- The header is inside the frame. -/
theorem Received.eight_le {scmd : BitVec 16} {frame rev : List Byte}
    (h : Received scmd frame rev) : 8 ≤ frame.length := by
  by_contra hlt
  have hclaimed := (verdict_eq_frame h.accepted).1
  have := lt_claimedLen (Nat.lt_of_not_le hlt)
  omega

/-- A frame in a slot. -/
theorem received_of_wellFormed {scmd : BitVec 16} {frame slot : List Byte} (h : WellFormed frame)
    (hcmd : (StPackCmd.ofBytes frame).cmd = tcmd121) (hscmd : frameScmd frame = scmd)
    (hslot : frame.length + slot.length = buffLen) : Received scmd frame (frame ++ slot) := by
  have hverdict := h.verdict_eq []
  rw [List.append_nil] at hverdict
  refine ⟨hverdict, hcmd, List.prefix_append _ _, by rw [List.length_append, hslot], ?_⟩
  rw [← hscmd]
  exact u16At_append h.ten_le slot

/-- The frame in a slot that held the byte `b` everywhere. -/
def inSlot (b : Byte) (frame : List Byte) : List Byte :=
  frame ++ List.replicate (buffLen - frame.length) b

theorem received_inSlot {scmd : BitVec 16} {frame : List Byte} (h : WellFormed frame)
    (hcmd : (StPackCmd.ofBytes frame).cmd = tcmd121) (hscmd : frameScmd frame = scmd) (b : Byte) :
    Received scmd frame (inSlot b frame) := by
  apply received_of_wellFormed h hcmd hscmd
  rw [List.length_replicate]
  have := h.le_buffLen
  omega

/-- What a command leads to. -/
inductive DicEffect
  | nothing
  | fault (e : Fault)
  | hang
  | lookInfo (sent : List Byte × ℕ) (reads : List (ℕ × ℕ))
  | reboot
  | telnet
  | serverInfo (s : ServerSystem) (reply : Option (List Byte × ℕ))
  | serverPoll (s : ServerSystem) (reply : List Byte × ℕ)

/-- The device reboots. -/
def DicEffect.reboots : DicEffect → Bool
  | .reboot => true
  | .serverInfo _ reply => reply.isSome
  | _ => false

section

-- `Sys_Setup.app.id`; what follows `password` on the stack; the system
variable (appId : BitVec 32) (dicInfo : DictionaryInfo) (stack : List Byte) (s : ServerSystem)

/-- `del_smd2_func`: `HWReboot` is called if `rev` and `password` differ. The string
    `password` is a copy of the 8 bytes without a terminating zero. -/
def del_smd2_func (rev : List Byte) : Bool :=
  let password := List.ofFn dicInfo.thirdDicInfo.imePassword
  decide (rt_strcmp rev (password ++ stack) ≠ 0)

def del_smd5_func : Option (ServerSystem × List Byte × ℕ) :=
  sendCmd122ForScmd4Scmd5 appId s tcmd121ScmdServerPoll

def recv_dic_cmd (rev : List Byte) : DicEffect :=
  let scmd := frameScmd rev
  if scmd = tcmd121ScmdLookInfo then
    match del_smd1_func appId dicInfo rev with
    | .ok (sent, reads) => .lookInfo sent reads
    | .error e => .fault e
  else if scmd = tcmd121ScmdReboot then
    if del_smd2_func dicInfo stack rev then .reboot else .nothing
  else if scmd = tcmd121ScmdTelnet then .telnet
  else if scmd = tcmd121ScmdServerInfo then
    match del_smd4_func appId s rev with
    | some (s, reply) => .serverInfo s reply
    | none => .hang
  else if scmd = tcmd121ScmdServerPoll then
    match del_smd5_func appId s with
    | some (s, reply) => .serverPoll s reply
    | none => .hang
  else .nothing

end

/-! ## Strings -/

/-- The string at the front of `bs`, up to the first zero. -/
def cString (bs : List Byte) : List Byte := bs.takeWhile (· ≠ 0)

theorem cString_cons_of_ne {c : Byte} (h : c ≠ 0) (cs : List Byte) :
    cString (c :: cs) = c :: cString cs := by
  unfold cString
  rw [List.takeWhile_cons, if_pos (decide_eq_true h)]

theorem cString_cons_zero (cs : List Byte) : cString (0 :: cs) = [] := by
  unfold cString
  rw [List.takeWhile_cons, if_neg (by decide)]

/-- A difference of bytes is zero only if they are equal. -/
theorem sub_eq_zero_iff {c t : Byte} : (c.toNat : ℤ) - (t.toNat : ℤ) = 0 ↔ c = t := by
  rw [Int.sub_eq_zero, Int.ofNat_inj, BitVec.toNat_inj]

theorem cString_eq_nil_iff (bs : List Byte) : cString bs = [] ↔ bs.headD 0 = 0 := by
  cases bs with
  | nil => exact iff_of_true rfl rfl
  | cons c cs =>
    by_cases h : c = 0
    · subst h
      exact iff_of_true (cString_cons_zero cs) rfl
    · rw [cString_cons_of_ne h]
      exact iff_of_false nofun h

/-- `rt_strcmp` is zero if the strings are equal. -/
theorem rt_strcmp_eq_zero_iff (cs ts : List Byte) :
    rt_strcmp cs ts = 0 ↔ cString cs = cString ts := by
  fun_induction rt_strcmp cs ts with
  | case1 c cs t ts hsame ih =>
    obtain ⟨hc, rfl⟩ := hsame
    rw [ih, cString_cons_of_ne hc, cString_cons_of_ne hc, List.cons_inj_right]
  | case2 c cs t ts hdiff =>
    rw [sub_eq_zero_iff]
    by_cases hct : c = t
    · subst hct
      obtain rfl : c = 0 := by_contra fun hc => hdiff ⟨hc, rfl⟩
      rw [cString_cons_zero, cString_cons_zero]
      exact iff_of_true rfl rfl
    · refine iff_of_false hct fun heq => hct ?_
      by_cases hc : c = 0
      · have hnil := (cString_eq_nil_iff (c :: cs)).2 hc
        rw [heq, cString_eq_nil_iff] at hnil
        exact hc.trans hnil.symm
      · have ht : t ≠ 0 := fun ht => hc <| by
          have hnil := (cString_eq_nil_iff (t :: ts)).2 ht
          rwa [← heq, cString_eq_nil_iff] at hnil
        rw [cString_cons_of_ne hc, cString_cons_of_ne ht] at heq
        exact (List.cons.inj heq).1
  | case3 cs ts hnil =>
    rw [sub_eq_zero_iff]
    cases cs with
    | nil => rw [show cString [] = [] from rfl, eq_comm (a := []), cString_eq_nil_iff, eq_comm]; rfl
    | cons c cs =>
      cases ts with
      | nil => rw [show cString [] = [] from rfl, cString_eq_nil_iff]; rfl
      | cons t ts => exact absurd rfl (hnil c cs t ts rfl)

end Abox.Dictionary
