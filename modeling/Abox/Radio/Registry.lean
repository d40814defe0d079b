import Abox.Lib.Runs
import Abox.Radio.Poll

/-!
# The registry of Cboxes

Frames from the server carry the low 24 bits of a Cbox id. A Cbox is registered
if its 32-bit id is new (`addCbox`); while it is polled it can send other ids
(`CHECK_CMD3`); `cleanCbox` zeroes slots that are still online between its
delays.

* `registry_iff`: in a run from start-up the ids of the online Cboxes are
  distinct, also as 24-bit ids, exactly when every step meets `RegistryOk`.
* `same_modId`: two Cboxes whose ids differ in the high byte only.
-/

namespace Abox.Radio

open Loops Runs Set

/-- `CBOX_DEVID`. -/
def cboxDevid : Fin devidTypeNum := ⟨0, devidTypeNum_pos⟩

/-- `devidCollection[CBOX_DEVID]`. -/
def CboxInformation.devid (c : CboxInformation) : BitVec 32 := c.devidCollection cboxDevid

/-- The 24 bits of an id that frames carry. -/
def modId (devid : BitVec 32) : BitVec 32 := devid &&& 0x00ffffff

/-- The 24-bit ids of the slots. -/
def modIds (s : AboxInformation) (j : ℕ) : BitVec 32 := (s.cboxInfo j).modId

/-- At most `CBOX_MAX_NUM` Cboxes are online, their ids are distinct, and no
    frame id stands for two of them. -/
structure Registry (s : AboxInformation) : Prop where
  num_le : s.cboxOnlineNum ≤ cboxMaxNum
  devid : InjOn (fun j => (s.cboxInfo j).devid) (Iio s.cboxOnlineNum)
  modId : InjOn (modIds s) (Iio s.cboxOnlineNum)

/-- Distinct 24-bit ids belong to distinct ids. -/
theorem registry_of_modId {s : AboxInformation} (hn : s.cboxOnlineNum ≤ cboxMaxNum)
    (h : InjOn (modIds s) (Iio s.cboxOnlineNum)) : Registry s := by
  refine ⟨hn, fun i hi j hj hij => h hi hj ?_, h⟩
  have hij' : (s.cboxInfo i).devid = (s.cboxInfo j).devid := hij
  show Radio.modId (s.cboxInfo i).devid = Radio.modId (s.cboxInfo j).devid
  rw [hij']

/-! ## Distinct values -/

section Distinct

variable {β : Type} {f g : ℕ → β} {n : ℕ}

/-- One of `n` distinct values is changed. -/
theorem injOn_change_iff (h : InjOn f (Iio n)) {i : ℕ} (hi : i < n) {b : β} (hb : g i = b)
    (hg : ∀ j < n, j ≠ i → g j = f j) : InjOn g (Iio n) ↔ ∀ j < n, j ≠ i → f j ≠ b := by
  constructor
  · intro hinj j hj hji hfb
    apply hji
    apply hinj (mem_Iio.2 hj) (mem_Iio.2 hi)
    rw [hb, hg j hj hji, hfb]
  · intro hne j hj k hk hjk
    have hj' : j < n := hj
    have hk' : k < n := hk
    by_cases hji : j = i
    · by_cases hki : k = i
      · rw [hji, hki]
      · rw [hji, hb, hg k hk' hki] at hjk
        exact absurd hjk.symm (hne k hk' hki)
    · by_cases hki : k = i
      · rw [hki, hb, hg j hj' hji] at hjk
        exact absurd hjk (hne j hj' hji)
      · rw [hg j hj' hji, hg k hk' hki] at hjk
        exact h hj hk hjk

/-- A value is added to `n` distinct ones. -/
theorem injOn_add_iff (h : InjOn f (Iio n)) {b : β} (hb : g n = b) (hg : ∀ j < n, g j = f j) :
    InjOn g (Iio (n + 1)) ↔ ∀ j < n, f j ≠ b := by
  constructor
  · intro hinj j hj hfb
    have : j = n := by
      apply hinj (mem_Iio.2 (by omega)) (mem_Iio.2 (by omega))
      rw [hb, hg j hj, hfb]
    omega
  · intro hne j hj k hk hjk
    have hj' : j < n + 1 := hj
    have hk' : k < n + 1 := hk
    by_cases hjn : j = n
    · by_cases hkn : k = n
      · rw [hjn, hkn]
      · rw [hjn, hb, hg k (by omega)] at hjk
        exact absurd hjk.symm (hne k (by omega))
    · by_cases hkn : k = n
      · rw [hkn, hb, hg j (by omega)] at hjk
        exact absurd hjk (hne j (by omega))
      · rw [hg j (by omega), hg k (by omega)] at hjk
        exact h (mem_Iio.2 (by omega)) (mem_Iio.2 (by omega)) hjk

/-- One of `n` distinct values is taken out. -/
theorem injOn_skip (h : InjOn f (Iio n)) {i : ℕ} (hi : i < n)
    (hg : ∀ j < n - 1, g j = f (skip i j)) : InjOn g (Iio (n - 1)) := by
  intro j hj k hk hjk
  have hj' : j < n - 1 := hj
  have hk' : k < n - 1 := hk
  rw [hg j hj', hg k hk'] at hjk
  exact skip_injective i (h (mem_Iio.2 (skip_lt hi hj')) (mem_Iio.2 (skip_lt hi hk')) hjk)

end Distinct

/-! ## The functions -/

theorem SameDevids.modIds {s s' : AboxInformation} (h : SameDevids s s') :
    Radio.modIds s' = Radio.modIds s := by
  funext j
  show Radio.modId ((s'.cboxInfo j).devidCollection _) =
    Radio.modId ((s.cboxInfo j).devidCollection _)
  rw [h.devid j]

theorem SameDevids.registry_congr {s s' : AboxInformation} (h : SameDevids s s') :
    Registry s' ↔ Registry s := by
  constructor
  · intro hreg
    apply registry_of_modId
    · rw [← h.online]
      exact hreg.num_le
    · rw [← h.online, ← h.modIds]
      exact hreg.modId
  · intro hreg
    apply registry_of_modId
    · rw [h.online]
      exact hreg.num_le
    · rw [h.online, h.modIds]
      exact hreg.modId

theorem sameDevids_recvServerData (s : AboxInformation) (recv : List Byte) :
    SameDevids s (recvServerData s recv).2 := by
  rcases recvServerData_cases s recv with ⟨heq, -⟩ | ⟨-, heq, -⟩ | ⟨-, i, s', heq, -, -, -, hput⟩
  · rw [heq]
    exact SameDevids.refl s
  · rw [heq]
    exact SameDevids.refl s
  · rw [heq]
    exact ⟨hput.same.online, hput.devid⟩

theorem sameDevids_pollFrom (r : Subg) (i : ℕ) : SameDevids r.aboxInfo (r.pollFrom i).aboxInfo := by
  unfold Subg.pollFrom
  split_ifs
  · exact (sameDevids_getPoolDate _ _).trans (sameDevids_sendCheckPack _
      (getPoolDate r.aboxInfo i).1 i (getPoolDate r.aboxInfo i).2.1)
  · exact SameDevids.refl _

/-- Only a received package changes ids. -/
theorem sameDevids_rxData (s : AboxInformation) (p : Poll) (a : Answer) :
    SameDevids (received s p a) (rxData s p a).1 := by
  by_cases hmiss : a.Missing
  · rw [rxData_of_missing s p hmiss, received_of_missing s p hmiss]
    exact sameDevids_unanswered s p a
  · obtain ⟨cboxRecv, n, hrx, -⟩ := rxData_of_answer s p hmiss
    rw [hrx]
    exact sameDevids_answered _ _ a

theorem sameDevids_answer (r : Subg) (p : Poll) (a : Answer) :
    SameDevids (received r.aboxInfo p a) (r.answer p a).aboxInfo :=
  answer_keeps (sameDevids_rxData r.aboxInfo p a) fun h => h.trans (sameDevids_pollFrom _ _)

/-- The ids that a `CHECK_CMD3` package announces. -/
def Answer.newDevid (a : Answer) : Option (BitVec 32) :=
  a.subgRecv.bind fun subgRecv =>
    if (CheckPackage2.ofBytes subgRecv).cmd = checkCmd3 then some (pDevId subgRecv cboxDevid)
    else none

/-- A package changes the id of the polled slot if it announces one. -/
theorem modIds_received (s : AboxInformation) (p : Poll) (a : Answer) (j : ℕ) :
    modIds (received s p a) j =
      if j = p.cboxIndex then (a.newDevid.map modId).getD (modIds s j) else modIds s j := by
  unfold received Answer.newDevid
  cases a.subgRecv with
  | none => split_ifs <;> rfl
  | some subgRecv =>
    simp only [recvPackage_table, Option.bind_some]
    by_cases h3 : (CheckPackage2.ofBytes subgRecv).cmd = checkCmd3
    · rw [if_pos h3, if_pos h3]
      unfold modIds
      rw [AboxInformation.modifyCbox_cboxInfo]
      split_ifs <;> rfl
    · rw [if_neg h3, if_neg h3]
      split_ifs <;> rfl

theorem received_online (s : AboxInformation) (p : Poll) (a : Answer) :
    (received s p a).cboxOnlineNum = s.cboxOnlineNum := by
  obtain heq | ⟨ids, heq⟩ := received_cases s p a
  all_goals rw [heq]
  rfl

/-! ## Removal -/

theorem sameDevids_dropSaved {fuel : ℕ} {s t : AboxInformation} {i : ℕ}
    (h : dropSaved fuel s i = some t) : SameDevids s t :=
  whileLoop_rel SameDevids.refl SameDevids.trans (fun _ => sameDevids_processExistingData ..) h

theorem sameDevids_dropQueue {fuel : ℕ} {s t : AboxInformation} {i : ℕ}
    (h : dropQueue fuel s i = some t) : SameDevids s t :=
  whileLoop_rel SameDevids.refl SameDevids.trans (fun _ => sameDevids_getPoolDate ..) h

/-- A removal takes one id out. -/
theorem modIds_removeCbox {fuel : ℕ} {s s' : AboxInformation} {i : ℕ}
    (hi : i < s.cboxOnlineNum) (h : removeCbox fuel s i = some s') :
    s'.cboxOnlineNum = s.cboxOnlineNum - 1 ∧
      ∀ j < s.cboxOnlineNum - 1, modIds s' j = modIds s (skip i j) := by
  obtain ⟨t, u, ht, hu, rfl⟩ := removeCbox_eq hi h
  have hsame := (sameDevids_dropSaved ht).trans (sameDevids_dropQueue hu)
  refine ⟨by rw [moveCboxesDown_cboxOnlineNum, hsame.online], fun j hj => ?_⟩
  rw [← hsame.modIds]
  show ((moveCboxesDown u i).cboxInfo j).modId = _
  rw [moveCboxesDown_cboxInfo (by rw [hsame.online]; exact hj)]
  rfl

theorem removeCbox_registry {fuel : ℕ} {s s' : AboxInformation} {i : ℕ}
    (h : removeCbox fuel s i = some s') (hreg : Registry s) : Registry s' := by
  by_cases hi : i < s.cboxOnlineNum
  · obtain ⟨hn, hids⟩ := modIds_removeCbox hi h
    have hle := hreg.num_le
    apply registry_of_modId
    · omega
    · rw [hn]
      exact injOn_skip hreg.modId hi hids
  · obtain rfl := removeCbox_of_offline hi h
    exact hreg

/-! ## Runs -/

/-- A pass of the loop of `cleanCbox` zeroes a slot that stays online only if no
    other Cbox that stays online has the 24-bit id 0. -/
def WipeOk (s : AboxInformation) (i : ℕ) : Prop :=
  i + 1 < s.cboxOnlineNum → ∀ j < s.cboxOnlineNum, j ≠ i → j ≠ i + 1 → modIds s j ≠ 0

/-- The steps that keep the ids apart: a package registers only a Cbox whose
    24-bit id no online Cbox has; `CHECK_CMD3` gives the polled Cbox a 24-bit id
    that no other one has; and a pass of `cleanCbox` meets `WipeOk`. -/
def RegistryOk (r : Subg) : Event → Prop
  | .recvTestPack2 cmd p_dev_id => cmd = testCmd2 → r.aboxInfo.cboxOnlineNum < cboxMaxNum →
      (∀ j < r.aboxInfo.cboxOnlineNum, (r.aboxInfo.cboxInfo j).devid ≠ p_dev_id cboxDevid) →
      ∀ j < r.aboxInfo.cboxOnlineNum, modIds r.aboxInfo j ≠ modId (p_dev_id cboxDevid)
  | .rxData a => ∀ p devid, r.poll = some p → a.newDevid = some devid →
      p.cboxIndex < r.aboxInfo.cboxOnlineNum →
      ∀ j < r.aboxInfo.cboxOnlineNum, j ≠ p.cboxIndex → modIds r.aboxInfo j ≠ modId devid
  | .cleanCbox => WipeOk r.aboxInfo 0
  | .cleanNext => ∀ i, r.cleaning = some i → WipeOk r.aboxInfo i
  | _ => True

theorem registryOk_rxData_iff (r : Subg) (a : Answer) : RegistryOk r (.rxData a) ↔
    ∀ p ∈ r.poll, a.newDevid.all (fun devid => decide (p.cboxIndex < r.aboxInfo.cboxOnlineNum →
      ∀ j < r.aboxInfo.cboxOnlineNum, j ≠ p.cboxIndex →
        modIds r.aboxInfo j ≠ modId devid)) = true := by
  simp only [Option.all_eq_true, decide_eq_true_eq]
  exact ⟨fun h p hp devid hdevid => h p devid hp hdevid,
    fun h p devid hp hdevid => h p hp devid hdevid⟩

instance (s : AboxInformation) (i : ℕ) : Decidable (WipeOk s i) :=
  inferInstanceAs (Decidable (i + 1 < s.cboxOnlineNum →
    ∀ j < s.cboxOnlineNum, j ≠ i → j ≠ i + 1 → modIds s j ≠ 0))

instance (r : Subg) : (e : Event) → Decidable (RegistryOk r e)
  | .recvTestPack2 cmd p_dev_id => inferInstanceAs (Decidable (cmd = testCmd2 →
      r.aboxInfo.cboxOnlineNum < cboxMaxNum →
      (∀ j < r.aboxInfo.cboxOnlineNum, (r.aboxInfo.cboxInfo j).devid ≠ p_dev_id cboxDevid) →
      ∀ j < r.aboxInfo.cboxOnlineNum, modIds r.aboxInfo j ≠ modId (p_dev_id cboxDevid)))
  | .rxData a => decidable_of_iff _ (registryOk_rxData_iff r a).symm
  | .cleanCbox => inferInstanceAs (Decidable (WipeOk r.aboxInfo 0))
  | .cleanNext => inferInstanceAs (Decidable (∀ i ∈ r.cleaning, WipeOk r.aboxInfo i))
  | .recvServerData _ | .traverseCbox | .removeCbox _ => .isTrue trivial

theorem addCbox_of_old {s : AboxInformation} {p_dev_id : Fin devidTypeNum → BitVec 32}
    (h : ∃ j < s.cboxOnlineNum, (s.cboxInfo j).devid = p_dev_id cboxDevid) :
    (addCbox s p_dev_id).2 = s := by
  obtain ⟨j, hj, hid⟩ := h
  unfold addCbox
  rw [if_pos]
  refine List.any_eq_true.2 ⟨j, List.mem_range.2 hj, ?_⟩
  exact beq_iff_eq.2 hid.symm

theorem addCbox_of_new {s : AboxInformation} {p_dev_id : Fin devidTypeNum → BitVec 32}
    (h : ∀ j < s.cboxOnlineNum, (s.cboxInfo j).devid ≠ p_dev_id cboxDevid) :
    (addCbox s p_dev_id).2.cboxOnlineNum = s.cboxOnlineNum + 1 ∧
      (∀ j < s.cboxOnlineNum, modIds (addCbox s p_dev_id).2 j = modIds s j) ∧
      modIds (addCbox s p_dev_id).2 s.cboxOnlineNum = modId (p_dev_id cboxDevid) := by
  have hany : ¬ (List.range s.cboxOnlineNum).any (fun i => p_dev_id cboxDevid ==
      (s.cboxInfo i).devidCollection cboxDevid) = true := by
    intro hany
    obtain ⟨j, hj, hid⟩ := List.any_eq_true.1 hany
    exact h j (List.mem_range.1 hj) (beq_iff_eq.1 hid).symm
  have hnum : (addCbox s p_dev_id).2.cboxOnlineNum = s.cboxOnlineNum + 1 := by
    simp only [addCbox]
    split_ifs with hif
    · exact absurd hif hany
    · rfl
  rcases addCbox_cases s p_dev_id with heq | ⟨-, -, -, hold, -, -, hid⟩
  · rw [heq] at hnum
    omega
  · refine ⟨hnum, fun j hj => ?_, ?_⟩
    · unfold modIds
      rw [hold j hj]
    · unfold modIds CboxInformation.modId
      rw [hid]
      rfl

theorem registry_recvTestPack2 {s : AboxInformation} {cmd : BitVec 6}
    {p_dev_id : Fin devidTypeNum → BitVec 32} (hreg : Registry s) :
    Registry (recvTestPack2 s cmd p_dev_id).2 ↔ (cmd = testCmd2 → s.cboxOnlineNum < cboxMaxNum →
      (∀ j < s.cboxOnlineNum, (s.cboxInfo j).devid ≠ p_dev_id cboxDevid) →
      ∀ j < s.cboxOnlineNum, modIds s j ≠ modId (p_dev_id cboxDevid)) := by
  unfold recvTestPack2
  by_cases hguard : cmd = testCmd2 ∧ s.cboxOnlineNum < cboxMaxNum
  · rw [if_pos hguard]
    simp only [hguard.1, hguard.2, true_implies]
    by_cases hnew : ∀ j < s.cboxOnlineNum, (s.cboxInfo j).devid ≠ p_dev_id cboxDevid
    · obtain ⟨hn, hold, hid⟩ := addCbox_of_new hnew
      have hadd := injOn_add_iff hreg.modId hid hold
      rw [← hn] at hadd
      constructor
      · exact fun h _ => hadd.1 h.modId
      · exact fun h => registry_of_modId (by rw [hn]; exact hguard.2) (hadd.2 (h hnew))
    · refine iff_of_true ?_ fun h => absurd h hnew
      push Not at hnew
      rw [addCbox_of_old hnew]
      exact hreg
  · rw [if_neg hguard]
    exact iff_of_true hreg fun h1 h2 => absurd ⟨h1, h2⟩ hguard

theorem registry_answer {r : Subg} {p : Poll} {a : Answer} (hreg : Registry r.aboxInfo) :
    Registry (r.answer p a).aboxInfo ↔ ∀ devid, a.newDevid = some devid →
      p.cboxIndex < r.aboxInfo.cboxOnlineNum →
      ∀ j < r.aboxInfo.cboxOnlineNum, j ≠ p.cboxIndex → modIds r.aboxInfo j ≠ modId devid := by
  rw [(sameDevids_answer r p a).registry_congr]
  have hn := received_online r.aboxInfo p a
  have hids := modIds_received r.aboxInfo p a
  have hiff : Registry (received r.aboxInfo p a) ↔
      InjOn (modIds (received r.aboxInfo p a)) (Iio r.aboxInfo.cboxOnlineNum) := by
    constructor
    · intro h
      rw [← hn]
      exact h.modId
    · intro h
      apply registry_of_modId
      · rw [hn]
        exact hreg.num_le
      · rw [hn]
        exact h
  rw [hiff]
  cases hnew : a.newDevid with
  | none =>
    refine iff_of_true (hreg.modId.congr fun j _ => ?_) fun devid h => absurd h (by simp)
    rw [hids j, hnew]
    split_ifs <;> rfl
  | some devid =>
    rw [hnew] at hids
    by_cases hi : p.cboxIndex < r.aboxInfo.cboxOnlineNum
    · have hself : modIds (received r.aboxInfo p a) p.cboxIndex = modId devid := by
        rw [hids, if_pos rfl]
        rfl
      rw [injOn_change_iff hreg.modId hi hself fun j _ hji => by rw [hids, if_neg hji]]
      simp only [Option.some.injEq, forall_eq', hi, true_implies]
    · refine iff_of_true (hreg.modId.congr fun j hj => ?_) fun devid' _ h => absurd h hi
      have hj' : j < r.aboxInfo.cboxOnlineNum := hj
      rw [hids j, if_neg (by omega)]

/-- A pass of `cleanCbox`, or its end. -/
theorem registry_cleanFrom {fuel : ℕ} {s s' : AboxInformation} {i : ℕ} {k : Option ℕ}
    (hreg : Registry s) (h : cleanFrom fuel s i = some (s', k)) : Registry s' ↔ WipeOk s i := by
  unfold cleanFrom at h
  split_ifs at h with hi
  · obtain ⟨t, ht, heq⟩ := Option.map_eq_some_iff.1 h
    obtain ⟨rfl, -⟩ := Prod.mk.inj heq
    obtain ⟨hn, hids⟩ := modIds_removeCbox hi ht
    have hregt := removeCbox_registry ht hreg
    have hmod : ∀ j, modIds (t.modifyCbox i fun _ => CboxInformation.zero) j =
        if j = i then 0 else modIds t j := by
      intro j
      show ((t.modifyCbox i fun _ => CboxInformation.zero).cboxInfo j).modId = _
      rw [AboxInformation.modifyCbox_cboxInfo]
      split_ifs <;> rfl
    have hiff : Registry (t.modifyCbox i fun _ => CboxInformation.zero) ↔
        InjOn (modIds (t.modifyCbox i fun _ => CboxInformation.zero)) (Iio t.cboxOnlineNum) :=
      ⟨fun h => h.modId, fun h => registry_of_modId hregt.num_le h⟩
    rw [hiff]
    by_cases hit : i < t.cboxOnlineNum
    · rw [injOn_change_iff hregt.modId hit (by rw [hmod, if_pos rfl])
        fun j _ hji => by rw [hmod, if_neg hji]]
      rw [hn] at hit ⊢
      constructor
      · intro hne hlt j hj hji hji'
        have hskip : skip i (if j < i then j else j - 1) = j := by
          unfold skip
          split_ifs <;> omega
        have := hne (if j < i then j else j - 1) (by split_ifs <;> omega) (by split_ifs <;> omega)
        rwa [hids _ (by split_ifs <;> omega), hskip] at this
      · intro hok j hj hji
        rw [hids j hj]
        exact hok (by omega) _ (skip_lt hi hj) (skip_ne i j) (by unfold skip; split_ifs <;> omega)
    · refine iff_of_true (hregt.modId.congr fun j hj => ?_) fun hlt => ?_
      · have hj' : j < t.cboxOnlineNum := hj
        rw [hmod, if_neg (by omega)]
      · omega
  · obtain ⟨rfl, -⟩ := Prod.mk.inj (Option.some.inj h)
    refine iff_of_true ?_ fun hlt => by omega
    apply registry_of_modId
    · exact Nat.zero_le _
    · intro j hj
      exact absurd hj (Nat.not_lt_zero j)

/-- One step keeps the ids apart exactly if it meets `RegistryOk`. -/
theorem step_registry_iff {r r' : Subg} {e : Event} (hreg : Registry r.aboxInfo)
    (h : r.Step e r') : Registry r'.aboxInfo ↔ RegistryOk r e := by
  cases h.effect with
  | recvServerData recv =>
    exact iff_of_true ((sameDevids_recvServerData _ _).registry_congr.2 hreg) trivial
  | traverseCbox => exact iff_of_true ((sameDevids_pollFrom _ _).registry_congr.2 hreg) trivial
  | rxData a hp =>
    rw [registry_answer hreg]
    simp only [RegistryOk, hp, Option.some.injEq]
    constructor
    · rintro h p' devid rfl
      exact h devid
    · exact fun h devid => h _ devid rfl
  | recvTestPack2 cmd p_dev_id => exact registry_recvTestPack2 hreg
  | removeCbox i _ hs => exact iff_of_true (removeCbox_registry hs hreg) trivial
  | cleanCbox hs =>
    have hsame : SameDevids r.aboxInfo
        { r.aboxInfo with packageSendNum := 0, packageWrongNum := 0 } := ⟨rfl, fun _ => rfl⟩
    have hiff := registry_cleanFrom (hsame.registry_congr.2 hreg) hs
    exact hiff
  | cleanNext hi hs =>
    rw [registry_cleanFrom hreg hs]
    simp only [RegistryOk, hi, Option.some.injEq, forall_eq']

theorem registry_init : Registry Subg.init.aboxInfo :=
  registry_of_modId (Nat.zero_le _) fun j hj => absurd hj (Nat.not_lt_zero j)

/-- In a run from start-up the ids of the online Cboxes are distinct in every
    state exactly when every step meets `RegistryOk`. A step that overruns a
    buffer of `BUFF_LEN` bytes with a longer record (`Abox.Radio.Fifo`,
    `Abox.Radio.Removal`) is none that returns. -/
theorem registry_iff {tr : List (Event × Subg)} (h : Path Subg.Step Subg.init tr) :
    Always (fun r => Registry r.aboxInfo) Subg.init tr ↔ AllSteps RegistryOk Subg.init tr :=
  h.always_iff (fun _ => True) _ (fun _ _ => trivial)
    (fun _ hreg hs => step_registry_iff hreg hs) trivial registry_init

/-- An answer with the `check_package3` whose ids are all `devid`. -/
def newIds (devid : Byte) : Answer where
  subgRecv := some ([0, 0, 0, 0, 0x18] ++ (List.replicate 6 [devid, 0, 0, 0]).flatten)
  tick := 1
  linked := true

/-- Three Cboxes register, the first one twice; polled, two of them announce other ids. The second
    one is removed and registers again. -/
def newIdEvents : List Event :=
  [.recvTestPack2 testCmd2 fun _ => 1, .recvTestPack2 testCmd2 fun _ => 2,
    .recvTestPack2 testCmd2 fun _ => 1, .recvTestPack2 testCmd2 fun _ => 3, .traverseCbox,
    .rxData (newIds 4), .rxData (newIds 5), .rxData (newIds 3), .removeCbox 1,
    .recvTestPack2 testCmd2 fun _ => 5]

theorem registry_new_ids : ∃ tr, exec (Subg.step 0) Subg.init newIdEvents = some tr ∧
    (List.range (last Subg.init tr).aboxInfo.cboxOnlineNum).map
      (modIds (last Subg.init tr).aboxInfo) = [4, 3, 5] ∧
    Always (fun r => Registry r.aboxInfo) Subg.init tr := by
  obtain ⟨tr, htr, hok, hids⟩ := exists_exec (P := fun tr => AllSteps RegistryOk Subg.init tr ∧
      (List.range (last Subg.init tr).aboxInfo.cboxOnlineNum).map
        (modIds (last Subg.init tr).aboxInfo) = [4, 3, 5])
    (show (exec (Subg.step 0) Subg.init newIdEvents).any _ = true by decide +kernel)
  exact ⟨tr, htr, hids, (registry_iff (exec_path (fun h => ⟨0, h⟩) htr)).2 hok⟩

/-- Two Cboxes whose ids differ only above the 24 bits that frames carry. -/
def sameModIdEvents : List Event :=
  [.recvTestPack2 testCmd2 fun _ => 0x01000001, .recvTestPack2 testCmd2 fun _ => 0x02000001]

/-- Both are registered, and a frame for the id 1 has two candidates. -/
theorem same_modId : ∃ tr, exec (Subg.step 0) Subg.init sameModIdEvents = some tr ∧
    Path Subg.Step Subg.init tr ∧
    ¬ Always (fun r => Registry r.aboxInfo) Subg.init tr := by
  refine ⟨_, rfl, exec_path (fun h => (⟨0, h⟩ : Subg.Step _ _ _))
    (show exec (Subg.step 0) Subg.init sameModIdEvents = some _ from rfl), fun halways => ?_⟩
  have hreg : Registry _ := halways.last
  have h01 := hreg.modId (show (0 : ℕ) ∈ Iio _ by decide) (show (1 : ℕ) ∈ Iio _ by decide) rfl
  exact absurd h01 (by decide)

end Abox.Radio
