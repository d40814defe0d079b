import Abox.Radio.Assess

/-!
# The window of the error rate

`assessCboxState` (`Abox/src/sub_G_A.c` lines 890–954) removes a Cbox for more than 80 %
lost packages, counted since `packSendNum` and `packSendErr` were restarted, which it
does after `PACKAGE_COUNT_START_MAX_NUM` packages. But the counters that it restarts
are those of its local copy.

* `Balanced`: the stored counters are those of the whole time online.
* `window_iff`: they stay within the window exactly in the runs where no Cbox has been
  sent more packages than that since it registered.
-/

namespace Abox.Radio

open Runs

/-! ## The counters -/

/-- The counters are within the window, and the percentage of lost packages is taken
    without wrapping. -/
structure CboxAssessmentReport.InWindow (r : CboxAssessmentReport) : Prop where
  err_le : r.packSendErr ≤ r.packSendNum
  num_le : r.packSendNum.toNat ≤ packageCountStartMaxNum
  exact : (r.packSendErr * 100).toNat = r.packSendErr.toNat * 100

/-- The bounds are small enough for 32 bits. -/
theorem CboxAssessmentReport.inWindow_iff (r : CboxAssessmentReport) :
    r.InWindow ↔ r.packSendErr ≤ r.packSendNum ∧
      r.packSendNum.toNat ≤ packageCountStartMaxNum := by
  refine ⟨fun h => ⟨h.err_le, h.num_le⟩, fun ⟨herr, hnum⟩ => ⟨herr, hnum, ?_⟩⟩
  have hmax : packageCountStartMaxNum = 20000 := rfl
  rw [BitVec.le_def] at herr
  rw [BitVec.toNat_mul]
  show r.packSendErr.toNat * 100 % 2 ^ 32 = r.packSendErr.toNat * 100
  omega

/-- The counters that are to be restarted agree with those that never are. -/
def CboxAssessmentReport.Balanced (r : CboxAssessmentReport) : Prop :=
  r.packSendNum = r.packTotal ∧ r.packSendErr = r.packErr

/-- The reports of the online Cboxes. -/
def Balanced (s : AboxInformation) : Prop :=
  ∀ j < s.cboxOnlineNum, (s.cboxInfo j).cboxAssessReport.Balanced

/-- The same Cboxes are online, and both pairs of counters have been advanced alike. -/
structure Accounted (s s' : AboxInformation) : Prop where
  online : s'.cboxOnlineNum = s.cboxOnlineNum
  report : ∀ j, (s.cboxInfo j).cboxAssessReport.Balanced →
    (s'.cboxInfo j).cboxAssessReport.Balanced

theorem Accounted.refl (s : AboxInformation) : Accounted s s := ⟨rfl, fun _ => id⟩

theorem Accounted.trans {s t u : AboxInformation} (h : Accounted s t) (h' : Accounted t u) :
    Accounted s u :=
  ⟨h'.online.trans h.online, fun j hj => h'.report j (h.report j hj)⟩

theorem Accounted.balanced {s s' : AboxInformation} (h : Accounted s s') (hs : Balanced s) :
    Balanced s' :=
  fun j hj => h.report j (hs j (by rw [← h.online]; exact hj))

theorem accounted_modifyCbox (s : AboxInformation) (i : ℕ)
    {f : CboxInformation → CboxInformation}
    (hf : ∀ c, c.cboxAssessReport.Balanced → (f c).cboxAssessReport.Balanced) :
    Accounted s (s.modifyCbox i f) := by
  refine ⟨rfl, fun j hj => ?_⟩
  rw [AboxInformation.modifyCbox_cboxInfo]
  split_ifs
  · exact hf _ hj
  · exact hj

theorem accounted_of_identity {s s' : AboxInformation} (hn : s'.cboxOnlineNum = s.cboxOnlineNum)
    (h : ∀ j, identity (s'.cboxInfo j) = identity (s.cboxInfo j)) : Accounted s s' := by
  refine ⟨hn, fun j hj => ?_⟩
  have hid := h j
  simp only [identity, Prod.mk.injEq] at hid
  rw [hid.2.2]
  exact hj

theorem ListsChanged.accounted {s s' : AboxInformation} {i : ℕ} (h : ListsChanged s s' i) :
    Accounted s s' := accounted_of_identity h.online h.identity

theorem SavedChanged.accounted {s s' : AboxInformation} {i : ℕ} (h : SavedChanged s s' i) :
    Accounted s s' := accounted_of_identity h.online h.identity

/-! ### Packages -/

/-- A package is counted twice. -/
theorem accounted_txResultData (s : AboxInformation) (i : ℕ) : Accounted s (txResultData s i) := by
  have hsum : Accounted s { s with packageSendNum := s.packageSendNum + 1 } := ⟨rfl, fun _ => id⟩
  refine hsum.trans (accounted_modifyCbox _ i fun c hc => ⟨?_, hc.2⟩)
  show c.cboxAssessReport.packSendNum + 1 = c.cboxAssessReport.packTotal + 1
  rw [hc.1]

/-- So is a loss. -/
theorem accounted_txResultFail (s : AboxInformation) (i : ℕ) : Accounted s (txResultFail s i) := by
  refine accounted_modifyCbox _ i fun c hc => ⟨hc.1, ?_⟩
  show c.cboxAssessReport.packSendErr + 1 = c.cboxAssessReport.packErr + 1
  rw [hc.2]

theorem accounted_setErrTick (s : AboxInformation) (i : ℕ) (ret : RtErr) (tick : BitVec 32) :
    Accounted s (setErrTick s i ret tick) := accounted_modifyCbox _ i fun _ => id

theorem accounted_nextPackNum (s : AboxInformation) (i : ℕ) : Accounted s (nextPackNum s i) :=
  accounted_modifyCbox _ i fun _ => id

theorem accounted_advance (s : AboxInformation) (p : Poll) : Accounted s (advance s p).1 :=
  (accounted_nextPackNum s _).trans (accounted_txResultData _ _)

theorem accounted_received (s : AboxInformation) (p : Poll) (a : Answer) :
    Accounted s (received s p a) := by
  obtain heq | ⟨ids, heq⟩ := received_cases s p a
  · rw [heq]
    exact Accounted.refl s
  · rw [heq]
    exact accounted_modifyCbox _ _ fun _ => id

theorem accounted_sendError (s : AboxInformation) (p : Poll) (tick : BitVec 32) :
    Accounted s (sendError s p tick) :=
  ((accounted_setErrTick s _ _ tick).trans
    (saveCboxRecv_savedChanged _ _ _ _).accounted).trans
      (requeueSend_listsChanged _ _ _ _).accounted

/-! ### Polls -/

theorem accounted_sendCheckPack (s : AboxInformation) (send : List Byte) (i n : ℕ) :
    Accounted s (sendCheckPack s send i n).1 := by
  have hrestored := (processExistingData_savedChanged (nextPackNum s i) i
    (List.replicate buffLen 0)).accounted
  exact ((accounted_nextPackNum s i).trans hrestored).trans (accounted_txResultData _ i)

theorem accounted_pollFrom (r : Subg) (i : ℕ) : Accounted r.aboxInfo (r.pollFrom i).aboxInfo := by
  unfold Subg.pollFrom
  split_ifs
  · have hpoll := (getPoolDate_listsChanged r.aboxInfo i).accounted
    exact hpoll.trans (accounted_sendCheckPack _ (getPoolDate r.aboxInfo i).1 i
      (getPoolDate r.aboxInfo i).2.1)
  · exact Accounted.refl _

theorem accounted_rxData (s : AboxInformation) (p : Poll) (a : Answer) :
    Accounted s (rxData s p a).1 := by
  by_cases hmiss : a.Missing
  · rw [rxData_of_missing s p hmiss]
    simp only [unanswered]
    split_ifs
    · exact (accounted_txResultFail s _).trans (accounted_sendError _ _ _)
    · exact (accounted_txResultFail s _).trans (accounted_txResultData _ _)
  · obtain ⟨cboxRecv, n, hrx, -⟩ := rxData_of_answer s p hmiss
    rw [hrx]
    simp only [answered]
    split_ifs
    · exact (accounted_received s p a).trans (accounted_setErrTick _ _ _ _)
    · exact (accounted_received s p a).trans (accounted_advance _ _)

theorem accounted_answer (r : Subg) (p : Poll) (a : Answer) :
    Accounted r.aboxInfo (r.answer p a).aboxInfo :=
  answer_keeps (accounted_rxData r.aboxInfo p a) fun h => h.trans (accounted_pollFrom _ _)

theorem accounted_recvServerData (s : AboxInformation) (recv : List Byte) :
    Accounted s (recvServerData s recv).2 := by
  simp only [recvServerData]
  split
  · exact Accounted.refl s
  · split_ifs
    · split
      · refine accounted_of_identity rfl fun j => ?_
        simp only [Function.update_apply]
        split_ifs with hj
        · rw [hj]
          rfl
        · rfl
      · exact Accounted.refl s
    · exact Accounted.refl s

/-! ### Registration and removal -/

theorem Removed.balanced {s t : AboxInformation} {i : ℕ} (h : Removed s t i)
    (hi : i < s.cboxOnlineNum) (hs : Balanced s) : Balanced t := by
  intro j hj
  have hid := h.identity j hj
  simp only [Radio.identity, Prod.mk.injEq] at hid
  rw [hid.2.2]
  exact hs _ (skip_lt hi (by rw [← h.online]; exact hj))

theorem removeCbox_balanced {fuel : ℕ} {s t : AboxInformation} {i : ℕ}
    (h : removeCbox fuel s i = some t) (hq : QueuesPacked s) (hsaved : SavedPacked s)
    (hs : Balanced s) : Balanced t := by
  by_cases hi : i < s.cboxOnlineNum
  · exact (removeCbox_removed hi hq hsaved h).balanced hi hs
  · obtain rfl := removeCbox_of_offline hi h
    exact hs

/-- The slot that `cleanCbox` wipes counts nothing. -/
theorem cleanFrom_balanced {fuel : ℕ} {s s' : AboxInformation} {i : ℕ} {k : Option ℕ}
    (h : cleanFrom fuel s i = some (s', k)) (hq : QueuesPacked s) (hsaved : SavedPacked s)
    (hs : Balanced s) : Balanced s' := by
  obtain ⟨-, -, t, ht, rfl⟩ | ⟨-, -, rfl⟩ := cleanFrom_cases h
  · exact (accounted_modifyCbox t i fun _ _ => ⟨rfl, rfl⟩).balanced
      (removeCbox_balanced ht hq hsaved hs)
  · exact fun j hj => absurd hj (Nat.not_lt_zero j)

/-- A Cbox that registers has been sent nothing. -/
theorem addCbox_balanced {s : AboxInformation} (p_dev_id : Fin devidTypeNum → BitVec 32)
    (hs : Balanced s) : Balanced (addCbox s p_dev_id).2 := by
  simp only [addCbox]
  split_ifs
  · exact hs
  · intro j hj
    simp only [Function.update_apply]
    split_ifs with hnew
    · exact ⟨rfl, rfl⟩
    · have hlt : j < s.cboxOnlineNum + 1 := hj
      exact hs j (by omega)

theorem event_balanced {r r' : Subg} {e : Event} (hr : Sound r) (h : r.Step e r')
    (hs : Balanced r.aboxInfo) : Balanced r'.aboxInfo := by
  cases h.effect with
  | recvServerData recv => exact (accounted_recvServerData _ recv).balanced hs
  | traverseCbox => exact (accounted_pollFrom r 0).balanced hs
  | rxData a => exact (accounted_answer r _ a).balanced hs
  | recvTestPack2 cmd p_dev_id =>
    show Balanced (recvTestPack2 r.aboxInfo cmd p_dev_id).2
    unfold recvTestPack2
    split_ifs
    · exact addCbox_balanced p_dev_id hs
    · exact hs
  | removeCbox i _ ht => exact removeCbox_balanced ht hr.queues.1 hr.saved hs
  | cleanCbox ht => exact cleanFrom_balanced ht hr.queues.1 hr.saved hs
  | cleanNext _ ht => exact cleanFrom_balanced ht hr.queues.1 hr.saved hs

theorem balanced_iff (s : AboxInformation) :
    Balanced s ↔ ∀ c ∈ cboxes s, c.cboxAssessReport.Balanced := by
  unfold cboxes
  rw [List.forall_mem_map]
  exact forall_congr' fun j => by rw [List.mem_range]; rfl

/-- Assessing removes Cboxes and changes nothing of the reports. -/
theorem Assessed.balanced {s t : AboxInformation} {judged : List CboxAssessmentReport}
    (h : Assessed s t judged) (hs : Balanced s) : Balanced t := by
  rw [balanced_iff] at hs ⊢
  rw [h.survivors]
  exact fun c hc => hs c (List.mem_filter.1 hc).1

/-! ## Runs -/

theorem radioStep_balanced {r r' : Subg} {e : RadioEvent} (hr : Sound r)
    (hs : Balanced r.aboxInfo) (h : r.RadioStep e r') : Balanced r'.aboxInfo := by
  rcases h.cases with ⟨e', -, hstep⟩ | ⟨charSigned, rtTickGet, fuel, t, judged, -, -, ht, rfl⟩
  · exact event_balanced hr hstep hs
  · exact (assessed_of_eq charSigned rtTickGet hr.queues.1 hr.saved hr.online ht).balanced hs

/-- In every run, the stored counters are those of the whole time online. -/
theorem always_balanced {tr : List (RadioEvent × Subg)} (h : Path Subg.RadioStep Subg.init tr) :
    Always (fun r => Sound r ∧ Balanced r.aboxInfo) Subg.init tr :=
  h.always _ (fun hr hs => ⟨hr.1.step hs, radioStep_balanced hr.1 hr.2 hs⟩)
    ⟨Sound.init, fun j hj => absurd hj (Nat.not_lt_zero j)⟩

/-- The event is a call of `assessCboxState`. -/
def RadioEvent.Assesses : RadioEvent → Prop
  | .event _ => False
  | .assessCboxState _ _ => True

/-- When the Cboxes are assessed, each that stays has been sent at most
    `PACKAGE_COUNT_START_MAX_NUM` packages since it registered, and has lost no more than
    that. -/
def FewPackages (r : Subg) : RadioEvent → Prop
  | .event _ => True
  | .assessCboxState _ _ => ∀ c ∈ cboxes r.aboxInfo, ¬ Removable c.cboxAssessReport →
      c.cboxAssessReport.packErr ≤ c.cboxAssessReport.packTotal ∧
        c.cboxAssessReport.packTotal.toNat ≤ packageCountStartMaxNum

/-- One call of `assessCboxState`. -/
theorem assess_inWindow_iff {r r' : Subg} {e : RadioEvent}
    (hr : Sound r ∧ Balanced r.aboxInfo) (h : r.RadioStep e r') :
    (e.Assesses → ∀ c ∈ cboxes r'.aboxInfo, c.cboxAssessReport.InWindow) ↔ FewPackages r e := by
  rcases h.cases with ⟨e', rfl, -⟩ | ⟨charSigned, rtTickGet, fuel, t, judged, rfl, -, ht, rfl⟩
  · exact iff_of_true nofun trivial
  · have hdone := assessed_of_eq charSigned rtTickGet hr.1.queues.1 hr.1.saved hr.1.online ht
    have hbalanced := (balanced_iff _).1 hr.2
    rw [show (RadioEvent.assessCboxState charSigned rtTickGet).Assesses = True from rfl,
      true_imp_iff, hdone.survivors]
    refine forall_congr' fun c => ?_
    rw [List.mem_filter, and_imp]
    refine forall_congr' fun hc => ?_
    rw [CboxAssessmentReport.inWindow_iff, (hbalanced c hc).1, (hbalanced c hc).2,
      CboxState.stays, decide_eq_true_eq]

/-! ### A Cbox that always answers -/

/-- An empty `CHECK_CMD2` package; with `reg`, more follow. -/
def checkAnswer (reg : Bool) : Answer :=
  ⟨some [0, 0, 0, 0, if reg then 0x16 else 0x14, 0, 0], 0, true⟩

/-- The only Cbox is polled. It has been sent `k` packages, has lost none, and there is
    nothing else for it. -/
structure Busy (k : ℕ) (r : Subg) (p : Poll) : Prop where
  poll : r.poll = some p
  index : p.cboxIndex = 0
  sendSize : p.sendSize = 0
  reg : p.checkPack1.reg = sendEnd
  online : r.aboxInfo.cboxOnlineNum = 1
  report : (r.aboxInfo.cboxInfo 0).cboxAssessReport =
    ⟨BitVec.ofNat 32 k, 0, BitVec.ofNat 32 k, 0, 0, 0⟩

theorem rxData_checkAnswer (s : AboxInformation) (p : Poll) (reg : Bool) :
    ∃ cboxRecv n, rxData s p (checkAnswer reg) =
      answered s { p with cboxRecv := cboxRecv, cboxRecvSize := n } (checkAnswer reg) := by
  have hmiss : ¬ (checkAnswer reg).Missing := fun h =>
    (h _ rfl).1 (by cases reg <;> decide)
  obtain ⟨cboxRecv, n, hrx, -⟩ := rxData_of_answer s p hmiss
  have hsame : received s p (checkAnswer reg) = s := by
    show (recvPackage s p _).2.1 = s
    rw [recvPackage_table, if_neg (by cases reg <;> decide)]
  rw [hsame] at hrx
  exact ⟨cboxRecv, n, hrx⟩

theorem Busy.step {k : ℕ} {r : Subg} {p : Poll} (h : Busy k r p) (a : Answer) :
    r.RadioStep (.event (.rxData a)) (r.answer p a) :=
  ⟨0, congrArg (Option.map fun p => r.answer p a) h.poll⟩

/-- It answers that more follow, and is sent the next package. -/
theorem Busy.next {k : ℕ} {r : Subg} {p : Poll} (h : Busy k r p) :
    ∃ q, Busy (k + 1) (r.answer p (checkAnswer true)) q := by
  obtain ⟨cboxRecv, n, hrx⟩ := rxData_checkAnswer r.aboxInfo p true
  simp only [answered] at hrx
  rw [if_neg fun hreg => absurd hreg.2 (by decide)] at hrx
  have hsize : p.sendSize - p.checkPack1.lenth.toNat = 0 := by
    rw [h.sendSize, Nat.zero_sub]
  unfold Subg.answer
  rw [hrx]
  refine ⟨_, rfl, h.index, hsize, ?_, h.online, ?_⟩
  · simp only [advance, Poll.nextPackage, hsize]
    rfl
  · simp only [advance, txResultData, nextPackNum, AboxInformation.modifyCbox_cboxInfo, h.index,
      if_true, h.report, BitVec.ofNat_add]
    rfl

/-- It answers that nothing follows, and the pass ends. -/
theorem Busy.done {k : ℕ} {r : Subg} {p : Poll} (h : Busy k r p) :
    (r.answer p (checkAnswer false)).poll = none ∧
      cboxes (r.answer p (checkAnswer false)).aboxInfo =
        [cboxState (r.answer p (checkAnswer false)).aboxInfo 0] ∧
      ((r.answer p (checkAnswer false)).aboxInfo.cboxInfo 0).cboxAssessReport =
        ⟨BitVec.ofNat 32 k, 0, BitVec.ofNat 32 k, 0, 0, 0⟩ := by
  obtain ⟨cboxRecv, n, hrx⟩ := rxData_checkAnswer r.aboxInfo p false
  simp only [answered] at hrx
  rw [if_pos ⟨h.reg, by decide⟩] at hrx
  have hn : (setErrTick r.aboxInfo p.cboxIndex .rtEok (checkAnswer false).tick).cboxOnlineNum = 1 :=
    h.online
  unfold Subg.answer Subg.pollFrom cboxes
  simp only [hrx]
  rw [if_neg (by rw [hn]; omega), hn]
  refine ⟨rfl, rfl, ?_⟩
  simp only [setErrTick, AboxInformation.modifyCbox_cboxInfo, h.index, if_true, h.report]
  rfl

/-- A run in which it is sent `k + 1` packages. -/
theorem busy_run (k : ℕ) : ∃ tr p, Path Subg.RadioStep Subg.init tr ∧
    AllSteps FewPackages Subg.init tr ∧ Busy (k + 1) (last Subg.init tr) p := by
  induction k with
  | zero =>
    refine ⟨_, _, exec_path (fun h => ⟨0, h⟩) (show exec (Subg.radioStep 0) Subg.init
      ([.recvTestPack2 testCmd2 fun _ => 1, .traverseCbox].map RadioEvent.event) = some _ from rfl),
      ⟨trivial, trivial, trivial⟩, rfl, rfl, rfl, rfl, rfl, rfl⟩
  | succ k ih =>
    obtain ⟨tr, p, hpath, hfew, hbusy⟩ := ih
    obtain ⟨q, hnext⟩ := hbusy.next
    refine ⟨_, q, hpath.snoc (hbusy.step (checkAnswer true)),
      allSteps_append.2 ⟨hfew, trivial, trivial⟩, ?_⟩
    rw [last_append]
    exact hnext

/-- Nothing is lost, and no time has passed. -/
theorem not_removable_lossless (n : BitVec 32) : ¬ Removable ⟨n, 0, n, 0, 0, 0⟩ := by
  rintro (⟨hnum, hlt, -⟩ | ⟨-, -, hlt⟩ | ⟨-, hlt⟩)
  · obtain rfl : n = 0 := hnum
    exact absurd hlt (by decide)
  · simp [CboxAssessmentReport.percent] at hlt
  · simp at hlt

/-- `assessCboxState` where no Cbox meets a criterion. -/
theorem Sound.assess {r : Subg} (hr : Sound r) (hidle : r.poll = none)
    (hstay : ∀ c ∈ cboxes r.aboxInfo, ¬ Removable c.cboxAssessReport) :
    ∃ t, r.RadioStep (.assessCboxState true fun _ => 0) { r with aboxInfo := t } ∧
      cboxes t = cboxes r.aboxInfo := by
  obtain ⟨t, judged, fuel, ht⟩ := (assess_ends_iff true (fun _ => 0) hr.queues.1 hr.saved
    hr.online).2 fun c hc hrem => absurd hrem (hstay c hc)
  refine ⟨t, ⟨fuel, ?_⟩, ?_⟩
  · simp only [Subg.radioStep, hidle, ht]
    rfl
  · rw [(assessed_of_eq true (fun _ => 0) hr.queues.1 hr.saved hr.online ht).survivors]
    exact List.filter_eq_self.2 fun c hc => decide_eq_true (hstay c hc)

/-- It is sent `k + 1` packages, answers them all, and is assessed. -/
theorem assessed_run (k : ℕ) : ∃ tr t c,
    Path Subg.RadioStep Subg.init (tr ++ [(.assessCboxState true fun _ => 0, t)]) ∧
    AllSteps FewPackages Subg.init tr ∧ cboxes (last Subg.init tr).aboxInfo = [c] ∧
    cboxes t.aboxInfo = [c] ∧
    c.cboxAssessReport = ⟨BitVec.ofNat 32 (k + 1), 0, BitVec.ofNat 32 (k + 1), 0, 0, 0⟩ := by
  obtain ⟨tr, p, hpath, hfew, hbusy⟩ := busy_run k
  obtain ⟨hidle, hone, hreport⟩ := hbusy.done
  have hpath' := hpath.snoc (hbusy.step (checkAnswer false))
  have hlast : ∀ r, last Subg.init (tr ++ [(.event (.rxData (checkAnswer false)), r)]) = r :=
    fun r => last_append
  generalize (last Subg.init tr).answer p (checkAnswer false) = r at *
  have hsound := (hpath'.always Sound (fun hr hs => hr.step hs) Sound.init).last
  rw [hlast] at hsound
  have hstay : ¬ Removable (r.aboxInfo.cboxInfo 0).cboxAssessReport := by
    rw [hreport]
    exact not_removable_lossless _
  obtain ⟨t, hstep, hsame⟩ := hsound.assess hidle (by
    rw [hone]
    exact List.forall_mem_singleton.2 hstay)
  refine ⟨_, _, _, hpath'.snoc (by rw [hlast]; exact hstep),
    allSteps_append.2 ⟨hfew, trivial, trivial⟩, ?_, hsame.trans hone, hreport⟩
  rw [hlast]
  exact hone

/-! ## The window -/

/-- Every `assessCboxState` of a run leaves the counters within the window exactly if the
    Cboxes that stay have never been sent more. A step that overruns a buffer of `BUFF_LEN`
    bytes with a longer record (`Abox.Radio.Fifo`, `Abox.Radio.Removal`) is none that
    returns. -/
theorem window_iff {tr : List (RadioEvent × Subg)} (h : Path Subg.RadioStep Subg.init tr) :
    (∀ p ∈ tr, p.1.Assesses → ∀ c ∈ cboxes p.2.aboxInfo, c.cboxAssessReport.InWindow) ↔
      AllSteps FewPackages Subg.init tr :=
  h.forall_iff
    (fun e r => e.Assesses → ∀ c ∈ cboxes r.aboxInfo, c.cboxAssessReport.InWindow)
    (fun hr hs => assess_inWindow_iff hr hs) (always_balanced h)

/-- A Cbox is sent one package, answers it and is assessed. -/
theorem window_short : ∃ tr t c, Path Subg.RadioStep Subg.init tr ∧
    (.assessCboxState true fun _ => 0, t) ∈ tr ∧ cboxes t.aboxInfo = [c] ∧
    c.cboxAssessReport.InWindow := by
  obtain ⟨tr, t, c, hpath, hfew, hbefore, hafter, hreport⟩ := assessed_run 0
  have hmem : (RadioEvent.assessCboxState true fun _ => 0, t) ∈
      tr ++ [(.assessCboxState true fun _ => 0, t)] := by simp
  refine ⟨_, t, c, hpath, hmem, hafter, ?_⟩
  refine (window_iff hpath).2 (allSteps_append.2 ⟨hfew, ?_, trivial⟩) _ hmem trivial c ?_
  · show ∀ c ∈ cboxes (last Subg.init tr).aboxInfo, _
    rw [hbefore]
    refine List.forall_mem_singleton.2 fun _ => ?_
    rw [hreport]
    decide
  · show c ∈ cboxes t.aboxInfo
    rw [hafter]
    exact List.mem_singleton_self c

/-- After 20001 packages, all of them answered, `assessCboxState` leaves
    `packSendNum` over `PACKAGE_COUNT_START_MAX_NUM`. -/
theorem window_exceeded : ∃ tr, Path Subg.RadioStep Subg.init tr ∧ ∃ p ∈ tr, p.1.Assesses ∧
    ∃ c ∈ cboxes p.2.aboxInfo, packageCountStartMaxNum < c.cboxAssessReport.packSendNum.toNat := by
  obtain ⟨tr, t, c, hpath, -, -, hafter, hreport⟩ := assessed_run 20000
  refine ⟨_, hpath, (.assessCboxState true fun _ => 0, t), by simp, trivial, c, ?_, ?_⟩
  · show c ∈ cboxes t.aboxInfo
    rw [hafter]
    exact List.mem_singleton_self c
  · rw [hreport]
    decide

end Abox.Radio
