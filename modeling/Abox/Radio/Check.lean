import Abox.Server.Tcp

/-!
# Frames from the radio

Model of `checkDataFromSubg` (`sub-G/sub_G_init.c` lines 10–78). The bytes
received from a Cbox are collected in a buffer of `BUFF_LEN` bytes; complete
frames are handed to `sendDataToServer`, bytes that start no frame are dropped.
-/

namespace Abox.Radio

open Server

/-- `sizeof(stPackCmd)+packcmd_t->len+2` as an `rt_uint32_t`; `len` is signed. -/
def cmdLength (packcmd : StPackCmd) : ℕ := (packcmd.len.signExtend 32 + 10).toNat

/-- `checkBuff`, `checkLen`, and the frames handed to `sendDataToServer`. -/
structure SubgBuff where
  checkBuff : List Byte
  checkLen : ℕ
  sent : List (List Byte)

namespace SubgBuff

/-- The inner loop (lines 22–32). -/
def skip (s : SubgBuff) : SubgBuff :=
  if 0 < s.checkLen ∧ ¬ IsHead (s.checkBuff.getD 0 0) then
    skip { s with checkBuff := dataLeft s.checkBuff 1, checkLen := s.checkLen - 1 }
  else s
termination_by s.checkLen
decreasing_by
  show s.checkLen - 1 < s.checkLen
  omega

/-- `checkBuff[0] = 0`. -/
def dropHead (s : SubgBuff) : SubgBuff := { s with checkBuff := s.checkBuff.set 0 0 }

/-- Two passes of the outer loop are never both without progress: a rejected
    head byte is zeroed, and a zeroed one is skipped. -/
def measure (s : SubgBuff) : ℕ := 2 * s.checkLen + if IsHead (s.checkBuff.getD 0 0) then 1 else 0

theorem skip_measure (s : SubgBuff) : s.skip.measure ≤ s.measure ∧
    (0 < s.skip.checkLen → IsHead (s.skip.checkBuff.getD 0 0)) := by
  induction s using skip.induct with
  | case1 s h ih =>
    rw [skip, if_pos h]
    refine ⟨le_trans ih.1 ?_, ih.2⟩
    simp only [measure, if_neg h.2]
    split_ifs <;> omega
  | case2 s h =>
    rw [skip, if_neg h]
    refine ⟨le_rfl, fun hpos => ?_⟩
    by_contra hhead
    exact h ⟨hpos, hhead⟩

theorem dropHead_measure {s : SubgBuff} (h : IsHead (s.checkBuff.getD 0 0)) :
    s.dropHead.measure < s.measure := by
  have hzero : ¬ IsHead (s.dropHead.checkBuff.getD 0 0) := by
    have : (s.checkBuff.set 0 0).getD 0 0 = 0 := by
      cases s.checkBuff with
      | nil => rfl
      | cons b bs => rfl
    show ¬ IsHead ((s.checkBuff.set 0 0).getD 0 0)
    rw [this]
    decide
  simp only [measure, if_pos h, if_neg hzero]
  show 2 * s.checkLen + 0 < 2 * s.checkLen + 1
  omega

/-- The outer loop (lines 20–74), `linked` being `Cdma_Info.link != DISCONNENCT`. -/
def scan (linked : Bool) (s : SubgBuff) : SubgBuff :=
  let s1 := s.skip
  if s1.checkLen = 0 then { s1 with checkBuff := List.replicate s1.checkBuff.length 0 }
  else
    let cmdLen := cmdLength (StPackCmd.ofBytes s1.checkBuff)
    if buffLen < cmdLen then scan linked s1.dropHead
    else if cmdLen ≤ s1.checkLen then
      if ModbusCrc16 (readN s1.checkBuff cmdLen) = 0 then
        scan linked
          { checkBuff := dataLeft s1.checkBuff cmdLen
            checkLen := s1.checkLen - cmdLen
            sent := if linked then s1.sent ++ [readN s1.checkBuff cmdLen] else s1.sent }
      else scan linked s1.dropHead
    else s1
termination_by s.measure
decreasing_by
  all_goals
    have hpos : 0 < s1.checkLen := Nat.pos_of_ne_zero (by assumption)
    obtain ⟨hle, hhead⟩ : s1.measure ≤ s.measure ∧
      (0 < s1.checkLen → IsHead (s1.checkBuff.getD 0 0)) := s.skip_measure
    refine lt_of_lt_of_le ?_ hle
  · exact dropHead_measure (hhead hpos)
  · rename_i hlen hcrc
    have hcmd : cmdLen ≠ 0 := by
      intro h0
      rw [h0] at hcrc
      exact ModbusCrc16_nil _ hcrc
    change cmdLen ≤ s1.checkLen at hlen
    have hfirst : s1.measure = 2 * s1.checkLen + 1 := by
      unfold measure
      rw [if_pos (hhead hpos)]
    rw [hfirst]
    unfold measure
    show 2 * (s1.checkLen - cmdLen) + _ < 2 * s1.checkLen + 1
    split_ifs <;> omega
  · exact dropHead_measure (hhead hpos)

/-! ## The length only shrinks -/

theorem skip_checkLen (s : SubgBuff) : s.skip.checkLen ≤ s.checkLen := by
  induction s using skip.induct with
  | case1 s h ih =>
    rw [skip, if_pos h]
    exact le_trans ih (Nat.sub_le _ _)
  | case2 s h => rw [skip, if_neg h]

theorem scan_checkLen (linked : Bool) (s : SubgBuff) : (s.scan linked).checkLen ≤ s.checkLen := by
  fun_induction scan linked s with
  | case1 s => exact skip_checkLen s
  | case2 s s1 h0 cmdLen hbig ih => exact le_trans ih (skip_checkLen s)
  | case3 s s1 h0 cmdLen hbig hlen hcrc ih =>
    exact le_trans ih (le_trans (Nat.sub_le _ _) (skip_checkLen s))
  | case4 s s1 h0 cmdLen hbig hlen hcrc ih => exact le_trans ih (skip_checkLen s)
  | case5 s => exact skip_checkLen s

end SubgBuff

/-- `checkDataFromSubg`: `checkBuff` and `*checkLength` afterwards, and the frames
    handed to `sendDataToServer`. -/
def checkDataFromSubg (linked : Bool) (checkBuff : List Byte) (checkLength : ℕ) : SubgBuff :=
  if checkLength = 0 then ⟨checkBuff, checkLength, []⟩
  else SubgBuff.scan linked ⟨checkBuff, checkLength, []⟩

theorem checkDataFromSubg_checkLen (linked : Bool) (checkBuff : List Byte) (checkLength : ℕ) :
    (checkDataFromSubg linked checkBuff checkLength).checkLen ≤ checkLength := by
  unfold checkDataFromSubg
  split_ifs
  · exact le_rfl
  · exact SubgBuff.scan_checkLen linked _

end Abox.Radio
