import Abox.Config.ServerInfo
import Abox.Lib.Runs

/-!
# Rotation through the list of servers

`Cdma_Info.serNetNum` is the index of the current server in the stored list.
`CHANGE_SERVER_INFO` moves it on, `WRITE_SERVER_INFO` replaces the list and
leaves the index as it is.

* `changeNum_lt_iff`: one change keeps the index in range exactly when it was
  in range (or the list has one server, or the index wraps around at 255).
* `rotation_iff`: in a run the index is in range at each use exactly when every
  change meets `RotationOk`; every server is selected in any case.
-/

namespace Abox.Config

open Runs

/-- The calls of a run. A write has one to four servers. -/
inductive ServerCall
  | init (RWriteInfo : Option ServerNetInformation)
  | change (RWriteInfo : Option ServerNetInformation)
  | read (RWriteInfo : Option ServerNetInformation)
  | write (RWriteInfo : ServerNetInformation)
      (num : 1 ≤ RWriteInfo.num ∧ RWriteInfo.num ≤ serverWriteNum)
  | changeServerInfo

/-- The state after a call. -/
def ServerSystem.call (s : ServerSystem) : ServerCall → Option ServerSystem
  | .init RWriteInfo => (controlServerInfo s .initServerInfo RWriteInfo).map Prod.fst
  | .change RWriteInfo => (controlServerInfo s .changeServerInfo RWriteInfo).map Prod.fst
  | .read RWriteInfo => (controlServerInfo s .readServerInfo RWriteInfo).map Prod.fst
  | .write RWriteInfo _ => (controlServerInfo s .writeServerInfo (some RWriteInfo)).map Prod.fst
  | .changeServerInfo => Config.changeServerInfo s

def ServerSystem.Step (s : ServerSystem) (c : ServerCall) (s' : ServerSystem) : Prop :=
  s.call c = some s'

/-- The call reads `netInfo[Cdma_Info.serNetNum]`. -/
def ServerCall.UsesIndex : ServerCall → Prop
  | .init _ => True
  | .change _ => True
  | .changeServerInfo => True
  | _ => False

/-- The index is below the stored number of servers. A call that uses the index
    does so last, so this is asked of the state after it. -/
def ServerSystem.InRange (s : ServerSystem) : Prop := (s.serNetNum.toNat : ℤ) < s.stored.num

/-- The changes that leave the index in range, by the state before them. -/
def RotationOk (s : ServerSystem) : ServerCall → Prop
  | .change _ | .changeServerInfo =>
    s.stored.checked.num = 1 ∨ (s.serNetNum.toNat : ℤ) < s.stored.checked.num ∨ s.serNetNum = 255
  | _ => True

/-! ## One change of the index -/

theorem toNat_succ {x : BitVec 8} (h : x ≠ 255) : (x + 1).toNat = x.toNat + 1 := by
  have hlt : x.toNat ≠ 255 := by
    intro hx
    apply h
    exact BitVec.eq_of_toNat_eq hx
  have := x.isLt
  rw [BitVec.toNat_add, Nat.mod_eq_of_lt]
  · rfl
  · show x.toNat + 1 < 2 ^ 8
    omega

theorem changeNum_lt_iff {c : ℤ} {x : BitVec 8} (h1 : 1 ≤ c) (h5 : c ≤ 5) :
    ((changeNum c x).toNat : ℤ) < c ↔ c = 1 ∨ (x.toNat : ℤ) < c ∨ x = 255 := by
  unfold changeNum serverDefaultNum
  by_cases hc : c = 1
  · subst hc
    simp
  · rw [if_neg hc, if_pos (show 1 < c by omega)]
    by_cases hx : c = (x.toNat : ℤ) + 1
    · rw [if_pos hx]
      have h0 : ((0 : BitVec 8).toNat : ℤ) = 0 := rfl
      exact iff_of_true (by omega) (Or.inr (Or.inl (by omega)))
    · rw [if_neg hx]
      by_cases h255 : x = 255
      · subst h255
        have h0 : (((255 : BitVec 8) + 1).toNat : ℤ) = 0 := rfl
        exact iff_of_true (by omega) (Or.inr (Or.inr rfl))
      · rw [toNat_succ h255]
        push_cast
        constructor
        · intro h
          exact Or.inr (Or.inl (by omega))
        · rintro (h | h | h)
          · exact absurd h hc
          · omega
          · exact absurd h h255

theorem initNum_lt {c : ℤ} {x : BitVec 8} (h1 : 1 ≤ c) : ((initNum c x).toNat : ℤ) < c := by
  unfold initNum serverDefaultNum
  have h0 : ((0 : BitVec 8).toNat : ℤ) = 0 := rfl
  have h2 : ((1 : BitVec 8).toNat : ℤ) = 1 := rfl
  split_ifs <;> omega

/-- Changes bring the index back to 0: directly, or at the latest when it wraps
    around. -/
theorem changeNum_reaches_zero {c : ℤ} (h1 : 1 ≤ c) (x : BitVec 8) :
    ∃ n, (changeNum c)^[n + 1] x = 0 := by
  induction hk : 255 - x.toNat generalizing x with
  | zero =>
    have hx : x = 255 := by
      have := x.isLt
      apply BitVec.eq_of_toNat_eq
      show x.toNat = 255
      omega
    subst hx
    refine ⟨0, ?_⟩
    show changeNum c 255 = 0
    unfold changeNum serverDefaultNum
    split_ifs
    · rfl
    · rfl
    · rfl
    · omega
  | succ k ih =>
    have hne : x ≠ 255 := by
      intro h
      rw [h] at hk
      have h255 : (255 : BitVec 8).toNat = 255 := rfl
      omega
    have hcases : changeNum c x = 0 ∨ changeNum c x = x + 1 := by
      unfold changeNum serverDefaultNum
      split_ifs
      · exact Or.inl rfl
      · exact Or.inl rfl
      · exact Or.inr rfl
      · omega
    rcases hcases with h | h
    · exact ⟨0, h⟩
    · obtain ⟨n, hn⟩ := ih (x + 1) (by rw [toNat_succ hne]; omega)
      refine ⟨n + 1, ?_⟩
      rw [Function.iterate_succ_apply, h]
      exact hn

theorem changeNum_reaches {c : ℤ} (h5 : c ≤ 5) {k : ℕ} (hk : (k : ℤ) < c) :
    ((changeNum c)^[k] 0).toNat = k := by
  induction k with
  | zero => rfl
  | succ k ih =>
    have hprev := ih (by omega)
    rw [Function.iterate_succ_apply']
    have hne : (changeNum c)^[k] 0 ≠ 255 := by
      intro h
      rw [h] at hprev
      have h255 : (255 : BitVec 8).toNat = 255 := rfl
      omega
    unfold changeNum serverDefaultNum at *
    rw [if_neg (by omega), if_pos (by omega), if_neg (by omega), toNat_succ hne, hprev]

/-! ## Calls -/

/-- Where a call uses the index, it is in range exactly if the call meets
    `RotationOk`. -/
theorem inRange_iff {s s' : ServerSystem} {c : ServerCall} (h : s.Step c s') :
    (c.UsesIndex → s'.InRange) ↔ RotationOk s c := by
  have hbound := num_of_valid (checked_valid s.stored)
  have hchange {t : ServerSystem} (hst : t.stored = s.stored.checked)
      (hnum : t.serNetNum = changeNum s.stored.checked.num s.serNetNum) :
      t.InRange ↔ (s.stored.checked.num = 1 ∨
        (s.serNetNum.toNat : ℤ) < s.stored.checked.num ∨ s.serNetNum = 255) := by
    unfold ServerSystem.InRange
    rw [hst, hnum]
    exact changeNum_lt_iff hbound.1 hbound.2
  cases c with
  | init RWriteInfo =>
    obtain ⟨t, heq, hst, hnum⟩ := controlServerInfo_init s RWriteInfo
    have hs' : t = s' := by simpa [ServerSystem.Step, ServerSystem.call, heq] using h
    subst hs'
    refine iff_of_true (fun _ => ?_) trivial
    unfold ServerSystem.InRange
    rw [hst, hnum]
    exact initNum_lt hbound.1
  | change RWriteInfo =>
    obtain ⟨t, heq, hst, hnum, -⟩ := controlServerInfo_change s RWriteInfo
    have hs' : t = s' := by simpa [ServerSystem.Step, ServerSystem.call, heq] using h
    subst hs'
    simp only [ServerCall.UsesIndex, true_implies, RotationOk]
    exact hchange hst hnum
  | read RWriteInfo => exact iff_of_true (fun hu => hu.elim) trivial
  | write RWriteInfo num => exact iff_of_true (fun hu => hu.elim) trivial
  | changeServerInfo =>
    obtain ⟨t, heq, hst, hnum, -⟩ := controlServerInfo_change s none
    obtain ⟨u, heq', hst', hnum'⟩ := controlServerInfo_read t (some ServerNetInformation.zero)
    have hs' : u.select t.stored.checked = s' := by
      simpa [ServerSystem.Step, ServerSystem.call, changeServerInfo, heq, getServerNetAdrr, heq']
        using h
    have hstored : s'.stored = s.stored.checked := by
      rw [← hs']
      show u.stored = _
      rw [hst', hst, checked_of_valid (checked_valid s.stored)]
    have hnumber : s'.serNetNum = changeNum s.stored.checked.num s.serNetNum := by
      rw [← hs']
      show u.serNetNum = _
      rw [hnum', hnum]
    simp only [ServerCall.UsesIndex, true_implies, RotationOk]
    exact hchange hstored hnumber

/-- `n` calls of `CHANGE_SERVER_INFO`. -/
def changes : ℕ → ServerSystem → Option ServerSystem
  | 0, s => some s
  | n + 1, s => (changes n s).bind fun s => s.call (.change none)

theorem changes_eq (n : ℕ) (s : ServerSystem) : ∃ t, changes (n + 1) s = some t ∧
    t.stored = s.stored.checked ∧
    t.serNetNum = (changeNum s.stored.checked.num)^[n + 1] s.serNetNum ∧
    t = t.select s.stored.checked := by
  induction n with
  | zero =>
    obtain ⟨t, heq, hst, hnum, hsel⟩ := controlServerInfo_change s none
    refine ⟨t, ?_, hst, hnum, hsel⟩
    simp [changes, ServerSystem.call, heq]
  | succ n ih =>
    obtain ⟨t, ht, hst, hnum, -⟩ := ih
    obtain ⟨u, heq, hst', hnum', hsel⟩ := controlServerInfo_change t none
    have hchecked : t.stored.checked = s.stored.checked := by
      rw [hst, checked_of_valid (checked_valid s.stored)]
    refine ⟨u, ?_, by rw [hst', hchecked], ?_, by rwa [hchecked] at hsel⟩
    · rw [changes, ht, Option.bind_some, ServerSystem.call, heq]
      rfl
    · rw [hnum', hchecked, hnum]
      exact (Function.iterate_succ_apply' ..).symm

/-- From every state some number of changes selects the server `k` of the list. -/
theorem changes_select (s : ServerSystem) {k : ℕ} (hk : (k : ℤ) < s.stored.checked.num) :
    ∃ n t, changes (n + 1) s = some t ∧ t.serNetNum.toNat = k ∧
      ∃ hk : k < serverNumMax, t.sysSetup = some (s.stored.checked.netInfo ⟨k, hk⟩) := by
  obtain ⟨h1, h5⟩ := num_of_valid (checked_valid s.stored)
  obtain ⟨i, hi⟩ := changeNum_reaches_zero h1 s.serNetNum
  obtain ⟨t, ht, hst, hnum, hsel⟩ := changes_eq (k + i) s
  have hlt : k < serverNumMax := by
    unfold serverNumMax
    omega
  have hindex : t.serNetNum.toNat = k := by
    rw [hnum, Nat.add_assoc, Function.iterate_add_apply, hi]
    exact changeNum_reaches h5 hk
  refine ⟨k + i, t, ht, hindex, hlt, ?_⟩
  rw [hsel]
  unfold ServerSystem.select
  simp only [hindex, hlt, dif_pos]

/-! ## Runs -/

/-- In a run the index is in range whenever it is used exactly when every change
    meets `RotationOk`, and every configured server can be selected. -/
theorem rotation_iff {s : ServerSystem} {tr : List (ServerCall × ServerSystem)}
    (h : Path ServerSystem.Step s tr) :
    ((∀ p ∈ tr, p.1.UsesIndex → p.2.InRange) ∧
      ∀ k : ℕ, (k : ℤ) < (last s tr).stored.checked.num → ∃ n t,
        changes (n + 1) (last s tr) = some t ∧ t.serNetNum.toNat = k ∧
        ∃ hk : k < serverNumMax,
          t.sysSetup = some ((last s tr).stored.checked.netInfo ⟨k, hk⟩)) ↔
      AllSteps RotationOk s tr := by
  have huse : (∀ p ∈ tr, p.1.UsesIndex → p.2.InRange) ↔ AllSteps RotationOk s tr := by
    induction h with
    | nil s => exact iff_of_true (by simp) trivial
    | cons hs _ ih =>
      rw [List.forall_mem_cons, ih, inRange_iff hs]
      rfl
  rw [huse]
  exact and_iff_left fun k hk => changes_select (last s tr) hk

/-- A system whose flash is erased, at start-up. -/
def erasedSystem : ServerSystem := ⟨fun _ => 0xFF, 0, none⟩

/-- A list of `n` servers, as the argument of a write. -/
def serverList (n : BitVec 32) : ServerNetInformation :=
  ⟨n, fun _ => defaultNetInfo, SerConConfig.zero⟩

theorem step_write (s : ServerSystem) {r : ServerNetInformation}
    (num : 1 ≤ r.num ∧ r.num ≤ serverWriteNum) :
    ∃ t, s.Step (.write r num) t ∧ t.stored = writtenServerInfo r ∧
      t.serNetNum = s.serNetNum := by
  obtain ⟨t, heq, hst, hnum⟩ := controlServerInfo_writeServer s num.2
  exact ⟨t, by simp [ServerSystem.Step, ServerSystem.call, heq], hst, hnum⟩

theorem step_change (s : ServerSystem) : ∃ t, s.Step (.change none) t ∧
    t.stored = s.stored.checked ∧ t.serNetNum = changeNum s.stored.checked.num s.serNetNum := by
  obtain ⟨t, heq, hst, hnum, -⟩ := controlServerInfo_change s none
  exact ⟨t, by simp [ServerSystem.Step, ServerSystem.call, heq], hst, hnum⟩

theorem step_init (s : ServerSystem) : ∃ t, s.Step (.init none) t ∧
    t.stored = s.stored.checked ∧ t.serNetNum = initNum s.stored.checked.num s.serNetNum := by
  obtain ⟨t, heq, hst, hnum⟩ := controlServerInfo_init s none
  exact ⟨t, by simp [ServerSystem.Step, ServerSystem.call, heq], hst, hnum⟩

/-- Three servers are written behind the built-in one, changes go through the
    list and around its end, and another list of three is written: the index
    stays in range, and every one of the four is still selected. -/
theorem rotation_around : ∃ tr, Path ServerSystem.Step erasedSystem tr ∧
    tr.map Prod.fst = [.write (serverList 3) (by decide), .init none, .change none, .change none,
      .change none, .change none, .write (serverList 3) (by decide), .change none] ∧
    ((∀ p ∈ tr, p.1.UsesIndex → p.2.InRange) ∧
      ∀ k : ℕ, (k : ℤ) < (last erasedSystem tr).stored.checked.num → ∃ n t,
        changes (n + 1) (last erasedSystem tr) = some t ∧ t.serNetNum.toNat = k ∧
        ∃ hk : k < serverNumMax,
          t.sysSetup = some ((last erasedSystem tr).stored.checked.netInfo ⟨k, hk⟩)) := by
  have hthree : (writtenServerInfo (serverList 3)).checked = writtenServerInfo (serverList 3) :=
    checked_of_valid (by decide)
  obtain ⟨a, ha, hsa, hna⟩ := step_write erasedSystem (r := serverList 3) (by decide)
  obtain ⟨b, hb, hsb, hnb⟩ := step_init a
  rw [hsa, hthree] at hsb hnb
  obtain ⟨c, hc, hsc, hnc⟩ := step_change b
  rw [hsb, hthree] at hsc hnc
  obtain ⟨d, hd, hsd, hnd⟩ := step_change c
  rw [hsc, hthree] at hsd hnd
  obtain ⟨e, he, hse, hne⟩ := step_change d
  rw [hsd, hthree] at hse hne
  obtain ⟨f, hf, hsf, hnf⟩ := step_change e
  rw [hse, hthree] at hsf hnf
  obtain ⟨g, hg, hsg, hng⟩ := step_write f (r := serverList 3) (by decide)
  obtain ⟨i, hi, -, -⟩ := step_change g
  refine ⟨_, .cons ha (.cons hb (.cons hc (.cons hd (.cons he (.cons hf (.cons hg (.cons hi
    (.nil i)))))))), rfl, (rotation_iff (.cons ha (.cons hb (.cons hc (.cons hd (.cons he (.cons hf
      (.cons hg (.cons hi (.nil i)))))))))).2 ⟨trivial, trivial, ?_, ?_, ?_, ?_, trivial, ?_,
        trivial⟩⟩
  all_goals unfold RotationOk
  · rw [hsb, hthree, hnb, hna]
    decide
  · rw [hsc, hthree, hnc, hnb, hna]
    decide
  · rw [hsd, hthree, hnd, hnc, hnb, hna]
    decide
  · rw [hse, hthree, hne, hnd, hnc, hnb, hna]
    decide
  · rw [hsg, hthree, hng, hnf, hne, hnd, hnc, hnb, hna]
    decide

/-- Four servers are written and the second one of them is selected; then a list
    of one is written. The next change takes the entry 3 of two. -/
theorem rotation_shorter_list : ∃ tr, Path ServerSystem.Step erasedSystem tr ∧
    tr.map Prod.fst = [.write (serverList 4) (by decide), .change none, .change none,
      .write (serverList 1) (by decide), .change none] ∧
    ¬ ∀ p ∈ tr, p.1.UsesIndex → p.2.InRange := by
  have hfour : (writtenServerInfo (serverList 4)).checked = writtenServerInfo (serverList 4) :=
    checked_of_valid (by decide)
  have hone : (writtenServerInfo (serverList 1)).checked = writtenServerInfo (serverList 1) :=
    checked_of_valid (by decide)
  obtain ⟨a, ha, hsa, hna⟩ := step_write erasedSystem (r := serverList 4) (by decide)
  obtain ⟨b, hb, hsb, hnb⟩ := step_change a
  obtain ⟨c, hc, hsc, hnc⟩ := step_change b
  obtain ⟨d, hd, hsd, hnd⟩ := step_write c (r := serverList 1) (by decide)
  obtain ⟨e, he, hse, hne⟩ := step_change d
  refine ⟨_, .cons ha (.cons hb (.cons hc (.cons hd (.cons he (.nil e))))), rfl, fun h => ?_⟩
  have hlast := h (.change none, e) (by simp) trivial
  unfold ServerSystem.InRange at hlast
  rw [hse, hne, hsd, hnd, hnc, hnb, hsb, hsa, hna, hfour, hfour, hone] at hlast
  exact absurd hlast (by decide)

end Abox.Config
