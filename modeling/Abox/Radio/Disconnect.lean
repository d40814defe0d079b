import Abox.Lib.Runs
import Abox.Radio.Ledger
import Abox.Radio.Registry

/-!
# Polling against disconnecting

`cleanCbox` takes all Cboxes offline and empties both pools. It runs in the
threads that set up and tear down connections, and stops at its delays; the
radio thread can be waiting in the middle of a poll.

* `disconnect_iff`: when a pass over the Cboxes and a `cleanCbox` have both
  ended, no bytes are left behind exactly when no poll that outlived the
  `cleanCbox` failed with something unsent or unhandled.
* `poll_outlives_cleanCbox`: a poll that does.
-/

namespace Abox.Radio

open Segments Runs

/-- The events of a pass over the Cboxes and of a `cleanCbox` under way. -/
def Event.OfPass : Event → Prop
  | .traverseCbox => True
  | .rxData _ => True
  | .cleanNext => True
  | _ => False

/-- `belongs i d`: the record `d` was addressed to or received from the Cbox in
    slot `i`. No Cbox holds anything else. -/
def NoForeign (belongs : ℕ → DataInfo → Prop) (s : AboxInformation) : Prop :=
  ∀ i < s.cboxOnlineNum, ∀ d ∈ queue (s.cboxInfo i) ++ saved (s.cboxInfo i), belongs i d

/-- Every byte of the two pools belongs to a record of an online Cbox. -/
structure Covered (s : AboxInformation) : Prop where
  cboxData : ∀ k : ℤ, 0 ≤ k → k < s.cboxDataPool.entrySize →
    ∃ d ∈ records queue s, d.seg.Has k
  subgData : ∀ k : ℤ, 0 ≤ k → k < s.subgDataPool.entrySize →
    ∃ d ∈ records saved s, d.seg.Has k

/-- Both pools are empty. -/
def PoolsEmpty (s : AboxInformation) : Prop :=
  s.cboxDataPool.entrySize = 0 ∧ s.subgDataPool.entrySize = 0

/-- Without online Cboxes nothing belongs to anyone. -/
theorem covered_iff_of_offline {s : AboxInformation} (h : s.cboxOnlineNum = 0) :
    Covered s ↔ PoolsEmpty s := by
  have hnil : ∀ f, records f s = [] := by
    intro f
    unfold records
    rw [h]
    rfl
  constructor
  · rintro ⟨h1, h2⟩
    constructor
    · by_contra hne
      obtain ⟨d, hd, -⟩ := h1 0 le_rfl (by omega)
      rw [hnil] at hd
      cases hd
    · by_contra hne
      obtain ⟨d, hd, -⟩ := h2 0 le_rfl (by omega)
      rw [hnil] at hd
      cases hd
  · rintro ⟨h1, h2⟩
    refine ⟨fun k h0 hk => ?_, fun k h0 hk => ?_⟩
    · rw [h1] at hk
      omega
    · rw [h2] at hk
      omega

/-- If a poll fails once all Cboxes are offline and no `cleanCbox` is under way,
    then it has sent everything, and nothing it received is left over. -/
def DisconnectOk (r : Subg) : Event → Prop
  | .rxData a => ∀ p, r.poll = some p → r.cleaning = none → r.aboxInfo.cboxOnlineNum = 0 →
      a.Missing → 10 ≤ p.errTimes →
      p.sendSize = 0 ∧ (checkDataFromSubg a.linked p.cboxRecv p.cboxRecvSize).checkLen = 0
  | _ => True

/-! ## The buffers of a poll -/

/-- What a poll holds fits into an empty pool. -/
structure PollFits (p : Poll) : Prop where
  send : p.sendSize ≤ cboxDataPoolSize
  recv : p.cboxRecvSize ≤ subgDataPoolSize

theorem ReadPool_bound {poolSize : ℕ} {p p' : PoolSetting poolSize} {place : ℤ} {n : ℕ}
    {bytes : List Byte} (h : ReadPool p place n = some (bytes, p')) :
    (place % 2 ^ 32).toNat + n ≤ poolSize := by
  simp only [ReadPool] at h
  split_ifs at h with h0 hsum hle
  have := p.entry_le
  omega

theorem getPoolDate_bound (s : AboxInformation) (i : ℕ) :
    (getPoolDate s i).2.1 ≤ cboxDataPoolSize := by
  unfold getPoolDate
  split
  · exact Nat.zero_le _
  · split
    · rename_i h
      exact le_trans (Nat.le_add_left _ _) (ReadPool_bound h)
    · exact Nat.zero_le _

theorem processExistingData_bound (s : AboxInformation) (i : ℕ) (saveBuff : List Byte) :
    (processExistingData s i saveBuff).2.1 ≤ subgDataPoolSize := by
  simp only [processExistingData]
  split_ifs
  · exact Nat.zero_le _
  · exact Nat.zero_le _
  · split
    · rename_i h
      exact le_trans (Nat.le_add_right _ _) (ReadPool_bound h)
    · exact Nat.zero_le _

theorem pollFits_sendCheckPack (s : AboxInformation) (send : List Byte) (i : ℕ) {n : ℕ}
    (hn : n ≤ cboxDataPoolSize) : PollFits (sendCheckPack s send i n).2 :=
  ⟨hn, processExistingData_bound _ i _⟩

theorem PollFits.answered {s : AboxInformation} {p q : Poll} {a : Answer} (hp : PollFits p)
    (h : (answered s p a).2.1 = some q) : PollFits q := by
  have hlen := checkDataFromSubg_checkLen a.linked p.cboxRecv p.cboxRecvSize
  simp only [Radio.answered] at h
  split_ifs at h
  obtain rfl := Option.some.inj h
  exact ⟨le_trans (Nat.sub_le _ _) hp.send, le_trans hlen hp.recv⟩

theorem PollFits.unanswered {s : AboxInformation} {p q : Poll} {a : Answer} (hp : PollFits p)
    (h : (unanswered s p a).2.1 = some q) : PollFits q := by
  simp only [Radio.unanswered] at h
  split_ifs at h
  obtain rfl := Option.some.inj h
  exact ⟨hp.send, hp.recv⟩

theorem PollFits.rxData {s : AboxInformation} {p q : Poll} {a : Answer} (hp : PollFits p)
    (h : (rxData s p a).2.1 = some q) : PollFits q := by
  by_cases hmiss : a.Missing
  · rw [rxData_of_missing s p hmiss] at h
    exact hp.unanswered h
  · obtain ⟨cboxRecv, n, hrx, hn⟩ := rxData_of_answer s p hmiss
    rw [hrx] at h
    have hbuff : buffLen ≤ subgDataPoolSize := by decide
    have hp' : PollFits { p with cboxRecv := cboxRecv, cboxRecvSize := n } :=
      ⟨hp.send, le_trans hn (max_le hp.recv hbuff)⟩
    exact hp'.answered h

/-! ## The pools during a poll -/

/-- The two states have the same pools. -/
def SamePools (s s' : AboxInformation) : Prop :=
  s'.cboxDataPool = s.cboxDataPool ∧ s'.subgDataPool = s.subgDataPool

theorem SameCboxes.samePools {s s' : AboxInformation} (h : SameCboxes s s') : SamePools s s' :=
  ⟨h.queues.pool, h.saved.pool⟩

theorem SamePools.empty_iff {s s' : AboxInformation} (h : SamePools s s') :
    PoolsEmpty s' ↔ PoolsEmpty s := by
  unfold PoolsEmpty
  rw [h.1, h.2]

theorem SamePools.trans {s t u : AboxInformation} (h : SamePools s t) (h' : SamePools t u) :
    SamePools s u :=
  ⟨h'.1.trans h.1, h'.2.trans h.2⟩

theorem samePools_answered (s : AboxInformation) (p : Poll) (a : Answer) :
    SamePools s (answered s p a).1 := by
  simp only [answered]
  split_ifs
  · exact (sameCboxes_setErrTick s _ _ _).samePools
  · exact (sameCboxes_advance s _).samePools

/-- Only the end of a failed poll writes into the pools. -/
theorem samePools_rxData {s : AboxInformation} {p : Poll} {a : Answer}
    (h : ¬ (a.Missing ∧ 10 ≤ p.errTimes)) : SamePools s (rxData s p a).1 := by
  by_cases hmiss : a.Missing
  · rw [rxData_of_missing s p hmiss]
    simp only [unanswered]
    rw [if_neg (fun hlt => h ⟨hmiss, Nat.le_of_lt_succ hlt⟩)]
    exact ((sameCboxes_txResultFail s _).trans (sameCboxes_txResultData _ _)).samePools
  · obtain ⟨cboxRecv, n, hrx, -⟩ := rxData_of_answer s p hmiss
    have hrecv : SamePools s (received s p a) := by
      obtain heq | ⟨ids, heq⟩ := received_cases s p a
      all_goals
        rw [heq]
        exact ⟨rfl, rfl⟩
    rw [hrx]
    exact hrecv.trans (samePools_answered _ _ a)

/-- A failed poll leaves empty pools empty exactly if nothing is left to put
    back and to save. -/
theorem sendError_empty_iff {s : AboxInformation} {p : Poll} {tick : BitVec 32}
    (hs : PoolsEmpty s) (hp : PollFits p) :
    PoolsEmpty (sendError s p tick) ↔ p.sendSize = 0 ∧ p.cboxRecvSize = 0 := by
  have hsend := hp.send
  have hrecv := hp.recv
  have hsize1 : cboxDataPoolSize = 5120 := rfl
  have hsize2 : subgDataPoolSize = 4096 := rfl
  have hpools := (sameCboxes_setErrTick s p.cboxIndex .rtError tick).samePools
  set t := setErrTick s p.cboxIndex .rtError tick with ht
  set u := saveCboxRecv t p.cboxIndex p.cboxRecv p.cboxRecvSize with hu
  have hsent : sendError s p tick = requeueSend u p.cboxIndex p.send p.sendSize := rfl
  obtain ⟨h1, h2⟩ := hpools.empty_iff.2 hs
  -- the radio data
  have hsave : u.subgDataPool.entrySize = p.cboxRecvSize := by
    by_cases h0 : p.cboxRecvSize = 0
    · rw [hu, saveCboxRecv, if_pos h0, h2, h0]
    · have hroom : RoomFor t.subgDataPool (p.cboxRecvSize % 2 ^ 16) := by
        unfold RoomFor
        omega
      have hentry := (saveCboxRecv_of_roomFor p.cboxIndex p.cboxRecv hroom).entrySize
      rw [length_readN, h2, ← hu] at hentry
      omega
  have hqueue : u.cboxDataPool.entrySize = 0 := by
    rw [hu, (saveCboxRecv_sameQueues t _ _ _).pool]
    exact h1
  -- the unsent bytes
  have hput : (requeueSend u p.cboxIndex p.send p.sendSize).cboxDataPool.entrySize = p.sendSize ∧
      (requeueSend u p.cboxIndex p.send p.sendSize).subgDataPool = u.subgDataPool := by
    by_cases h0 : p.sendSize = 0
    · rw [requeueSend, if_pos h0]
      exact ⟨by rw [hqueue, h0], rfl⟩
    · have hroom : RoomFor u.cboxDataPool (p.sendSize % 2 ^ 16) := by
        unfold RoomFor
        omega
      have hput := requeueSend_of_roomFor p.cboxIndex p.send hroom
      refine ⟨?_, hput.same.pool⟩
      have := hput.entrySize
      rw [length_readN, hqueue] at this
      omega
  rw [hsent]
  unfold PoolsEmpty
  rw [hput.1, hput.2, hsave]

/-! ## Runs -/

/-- Once a `cleanCbox` has ended, no Cbox is online, and the pools are empty or no
    poll is under way. -/
structure Outliving (r : Subg) : Prop where
  fits : ∀ p, r.poll = some p → PollFits p
  offline : r.cleaning = none → r.aboxInfo.cboxOnlineNum = 0
  rest : r.cleaning = none → PoolsEmpty r.aboxInfo ∨ r.poll = none

/-- Once a `cleanCbox` has ended, the pools are empty. -/
def Emptied (r : Subg) : Prop := r.cleaning = none → PoolsEmpty r.aboxInfo

theorem fits_pollFrom {r : Subg} {i : ℕ} : ∀ p, (r.pollFrom i).poll = some p → PollFits p := by
  intro p hp
  unfold Subg.pollFrom at hp
  split_ifs at hp
  obtain rfl := Option.some.inj hp
  exact pollFits_sendCheckPack _ _ _ (getPoolDate_bound _ _)

theorem pollFrom_of_offline {r : Subg} {i : ℕ} (h : r.aboxInfo.cboxOnlineNum = 0) :
    r.pollFrom i = { r with poll := none } := by
  unfold Subg.pollFrom
  rw [if_neg (by omega)]

@[simp] theorem pollFrom_cleaning (r : Subg) (i : ℕ) : (r.pollFrom i).cleaning = r.cleaning := by
  unfold Subg.pollFrom
  split_ifs <;> rfl

@[simp] theorem answer_cleaning (r : Subg) (p : Poll) (a : Answer) :
    (r.answer p a).cleaning = r.cleaning := by
  obtain ⟨q, -, heq⟩ | ⟨-, next, -, hcleaning, -, heq⟩ := answer_cases r p a
  · rw [heq]
  · rw [heq, pollFrom_cleaning, hcleaning]

theorem fits_answer {r : Subg} {p : Poll} {a : Answer} (hp : PollFits p) :
    ∀ q, (r.answer p a).poll = some q → PollFits q := by
  intro q hq
  obtain ⟨q', hrx, heq⟩ | ⟨-, next, -, -, -, heq⟩ := answer_cases r p a
  · rw [heq] at hq
    exact hp.rxData (hrx.trans hq)
  · rw [heq] at hq
    exact fits_pollFrom q hq

theorem answer_of_offline {r : Subg} {p : Poll} {a : Answer}
    (h : (rxData r.aboxInfo p a).1.cboxOnlineNum = 0) :
    (r.answer p a).aboxInfo = (rxData r.aboxInfo p a).1 ∧
      (r.answer p a).poll = (rxData r.aboxInfo p a).2.1 := by
  obtain ⟨q, hrx, heq⟩ | ⟨hrx, next, hnext, -, -, heq⟩ := answer_cases r p a
  · rw [heq, hrx]
    exact ⟨rfl, rfl⟩
  · rw [← hnext] at h ⊢
    rw [heq, hrx, pollFrom_of_offline h]
    exact ⟨rfl, rfl⟩

theorem rxData_online (s : AboxInformation) (p : Poll) (a : Answer) :
    (rxData s p a).1.cboxOnlineNum = s.cboxOnlineNum :=
  (sameDevids_rxData s p a).online.trans (received_online s p a)

theorem outliving_of_cleaning {r : Subg} (hfits : ∀ p, r.poll = some p → PollFits p)
    (h : r.cleaning ≠ none) : Outliving r :=
  ⟨hfits, fun hn => absurd hn h, fun hn => absurd hn h⟩

/-- At its end, `cleanCbox` leaves the pools empty. -/
theorem cleanFrom_none {fuel : ℕ} {s s' : AboxInformation} {i : ℕ}
    (h : cleanFrom fuel s i = some (s', none)) : s'.cboxOnlineNum = 0 ∧ PoolsEmpty s' := by
  obtain ⟨-, hk, -⟩ | ⟨-, -, rfl⟩ := cleanFrom_cases h
  · cases hk
  · exact ⟨rfl, rfl, rfl⟩

/-- The loop of `cleanCbox` goes on, or the pools are empty. -/
theorem outliving_cleanFrom {fuel : ℕ} {r : Subg} {t s : AboxInformation} {i : ℕ} {k : Option ℕ}
    (hfits : ∀ p, r.poll = some p → PollFits p) (h : cleanFrom fuel t i = some (s, k)) :
    Outliving { r with aboxInfo := s, cleaning := k } ∧
      Emptied { r with aboxInfo := s, cleaning := k } := by
  cases k with
  | some k =>
    constructor
    · exact outliving_of_cleaning hfits (by simp)
    · exact fun hn => absurd hn (by simp)
  | none =>
    obtain ⟨hn, hempty⟩ := cleanFrom_none h
    exact ⟨⟨hfits, fun _ => hn, fun _ => Or.inl hempty⟩, fun _ => hempty⟩

theorem step_traverseCbox {r : Subg} (hpoll : r.poll = none) (hr : Outliving r) :
    Outliving (r.pollFrom 0) ∧ (Emptied (r.pollFrom 0) ↔ Emptied r) := by
  by_cases hc : r.cleaning = none
  · have hoff := hr.offline hc
    have heq : r.pollFrom 0 = r := by
      rw [pollFrom_of_offline hoff, ← hpoll]
    rw [heq]
    exact ⟨hr, Iff.rfl⟩
  · have hc' : (r.pollFrom 0).cleaning ≠ none := by rw [pollFrom_cleaning]; exact hc
    refine ⟨outliving_of_cleaning fits_pollFrom hc', ?_⟩
    exact iff_of_true (fun hn => absurd hn hc') fun hn => absurd hn hc

theorem step_rxData {r : Subg} {p : Poll} {a : Answer} (hp : r.poll = some p)
    (hr : Outliving r) : Outliving (r.answer p a) ∧
      (Emptied (r.answer p a) ↔ Emptied r ∧ DisconnectOk r (.rxData a)) := by
  have hfits := hr.fits p hp
  by_cases hc : r.cleaning = none
  · have hoff : (rxData r.aboxInfo p a).1.cboxOnlineNum = 0 := by
      rw [rxData_online]
      exact hr.offline hc
    obtain ⟨hinfo, hpoll⟩ := answer_of_offline hoff
    have hc' : (r.answer p a).cleaning = none := by rw [answer_cleaning]; exact hc
    have hempty : PoolsEmpty r.aboxInfo := by
      rcases hr.rest hc with h | h
      · exact h
      · rw [hp] at h
        cases h
    have hemptied : Emptied (r.answer p a) ↔ PoolsEmpty (rxData r.aboxInfo p a).1 := by
      unfold Emptied
      rw [hinfo]
      exact ⟨fun h => h hc', fun h _ => h⟩
    rw [hemptied]
    by_cases hfail : a.Missing ∧ 10 ≤ p.errTimes
    · -- the poll ends
      have hrx := rxData_of_failed r.aboxInfo p hfail.1 hfail.2
      refine ⟨⟨fits_answer hfits, fun _ => by rw [hinfo]; exact hoff, fun _ => Or.inr ?_⟩, ?_⟩
      · rw [hpoll, hrx]
      · have hstart := (sameCboxes_txResultFail r.aboxInfo p.cboxIndex).samePools.empty_iff.2 hempty
        have hfits' : PollFits (p.checked a.linked) :=
          ⟨hfits.send, le_trans (checkDataFromSubg_checkLen ..) hfits.recv⟩
        rw [hrx]
        refine (sendError_empty_iff hstart hfits').trans ?_
        constructor
        · intro h
          refine ⟨fun _ => hempty, fun p' hp' _ _ _ _ => ?_⟩
          rw [hp] at hp'
          obtain rfl := Option.some.inj hp'
          exact h
        · intro h
          exact h.2 p hp hc (hr.offline hc) hfail.1 hfail.2
    · have hempty' := (samePools_rxData hfail).empty_iff.2 hempty
      refine ⟨⟨fits_answer hfits, fun _ => by rw [hinfo]; exact hoff,
        fun _ => Or.inl (by rw [hinfo]; exact hempty')⟩, ?_⟩
      refine iff_of_true hempty' ⟨fun _ => hempty, fun p' hp' _ _ h1 h2 => ?_⟩
      rw [hp] at hp'
      obtain rfl := Option.some.inj hp'
      exact absurd ⟨h1, h2⟩ hfail
  · have hc' : (r.answer p a).cleaning ≠ none := by rw [answer_cleaning]; exact hc
    refine ⟨outliving_of_cleaning (fits_answer hfits) hc', ?_⟩
    exact iff_of_true (fun hn => absurd hn hc')
      ⟨fun hn => absurd hn hc, fun p' _ hn => absurd hn hc⟩

/-- One event keeps the pools empty exactly if it meets `DisconnectOk`. -/
theorem step_emptied_iff {r r' : Subg} {e : Event} (he : e.OfPass) (hr : Outliving r)
    (h : r.Step e r') : Outliving r' ∧ (Emptied r' ↔ Emptied r ∧ DisconnectOk r e) := by
  cases h.effect with
  | traverseCbox hidle =>
    obtain ⟨hout, hiff⟩ := step_traverseCbox hidle hr
    exact ⟨hout, hiff.trans (and_iff_left trivial).symm⟩
  | rxData a hp => exact step_rxData hp hr
  | cleanNext hi hs =>
    obtain ⟨hout, hempty⟩ := outliving_cleanFrom hr.fits hs
    refine ⟨hout, iff_of_true hempty ⟨fun hn => ?_, trivial⟩⟩
    rw [hi] at hn
    cases hn
  | recvServerData recv => exact he.elim
  | recvTestPack2 cmd p_dev_id => exact he.elim
  | removeCbox i => exact he.elim
  | cleanCbox => exact he.elim

/-- After `cleanCbox` has started, the pools end up empty exactly if every event
    meets `DisconnectOk`. -/
theorem run_emptied_iff {r : Subg} {tr : List (Event × Subg)} (hp : Path Subg.Step r tr)
    (hpass : ∀ x ∈ tr, x.1.OfPass) (hr : Outliving r) :
    Outliving (last r tr) ∧ (Emptied (last r tr) ↔ Emptied r ∧ AllSteps DisconnectOk r tr) := by
  induction hp with
  | nil r => exact ⟨hr, (and_iff_left trivial).symm⟩
  | @cons r r' e tr hs _ ih =>
    obtain ⟨hr', hiff⟩ := step_emptied_iff (hpass (e, r') (by simp)) hr hs
    obtain ⟨hlast, hrun⟩ := ih (fun x hx => hpass x (by simp [hx])) hr'
    refine ⟨hlast, hrun.trans ?_⟩
    rw [hiff, and_assoc]
    rfl

/-! ## Before the `cleanCbox` -/

/-- No `cleanCbox` is under way, and a poll is one of an online Cbox. -/
structure Undisturbed (r : Subg) : Prop where
  cleaning : r.cleaning = none
  online : ∀ p, r.poll = some p → PollFits p ∧ p.cboxIndex < r.aboxInfo.cboxOnlineNum

theorem undisturbed_pollFrom {r : Subg} {i : ℕ} (hc : r.cleaning = none) :
    Undisturbed (r.pollFrom i) := by
  refine ⟨by rw [pollFrom_cleaning]; exact hc, fun p hp => ⟨fits_pollFrom p hp, ?_⟩⟩
  rw [(sameDevids_pollFrom r i).online]
  unfold Subg.pollFrom at hp
  split_ifs at hp with hi
  obtain rfl := Option.some.inj hp
  exact hi

theorem rxData_cboxIndex {s : AboxInformation} {p q : Poll} {a : Answer}
    (h : (rxData s p a).2.1 = some q) : q.cboxIndex = p.cboxIndex := by
  by_cases hmiss : a.Missing
  · rw [rxData_of_missing s p hmiss] at h
    simp only [unanswered] at h
    split_ifs at h
    obtain rfl := Option.some.inj h
    rfl
  · obtain ⟨cboxRecv, n, hrx, -⟩ := rxData_of_answer s p hmiss
    rw [hrx] at h
    simp only [answered] at h
    split_ifs at h
    obtain rfl := Option.some.inj h
    rfl

theorem undisturbed_answer {r : Subg} {p : Poll} {a : Answer} (hr : Undisturbed r)
    (hp : r.poll = some p) : Undisturbed (r.answer p a) := by
  obtain ⟨hfits, hi⟩ := hr.online p hp
  have hn := rxData_online r.aboxInfo p a
  obtain ⟨q, hrx, heq⟩ | ⟨-, next, -, hcleaning, -, heq⟩ := answer_cases r p a
  · rw [heq]
    refine ⟨hr.cleaning, fun q' hq' => ?_⟩
    obtain rfl := Option.some.inj hq'
    refine ⟨hfits.rxData hrx, ?_⟩
    show q.cboxIndex < (rxData r.aboxInfo p a).1.cboxOnlineNum
    rw [rxData_cboxIndex hrx, hn]
    exact hi
  · rw [heq]
    exact undisturbed_pollFrom (hcleaning.trans hr.cleaning)

/-- As long as no `cleanCbox` starts, every poll is one of an online Cbox. -/
theorem undisturbed_step {r r' : Subg} {e : Event} (he : e.OfPass) (hr : Undisturbed r)
    (h : r.Step e r') : Undisturbed r' ∧ DisconnectOk r e := by
  cases h.effect with
  | traverseCbox => exact ⟨undisturbed_pollFrom hr.cleaning, trivial⟩
  | rxData a hp =>
    refine ⟨undisturbed_answer hr hp, fun p' hp' _ hoff => ?_⟩
    have hi := (hr.online p' hp').2
    omega
  | cleanNext hi =>
    rw [hr.cleaning] at hi
    cases hi
  | recvServerData recv => exact he.elim
  | recvTestPack2 cmd p_dev_id => exact he.elim
  | removeCbox i => exact he.elim
  | cleanCbox => exact he.elim

theorem undisturbed_run {r : Subg} {tr : List (Event × Subg)} (hp : Path Subg.Step r tr)
    (hpass : ∀ x ∈ tr, x.1.OfPass) (hr : Undisturbed r) :
    Undisturbed (last r tr) ∧ AllSteps DisconnectOk r tr := by
  induction hp with
  | nil r => exact ⟨hr, trivial⟩
  | @cons r r' e tr hs _ ih =>
    obtain ⟨hr', hok⟩ := undisturbed_step (hpass (e, r') (by simp)) hr hs
    obtain ⟨hlast, hrun⟩ := ih (fun x hx => hpass x (by simp [hx])) hr'
    exact ⟨hlast, hok, hrun⟩

/-! ## The interleavings -/

theorem step_cleanCbox {r r' : Subg} (hr : Undisturbed r) (h : r.Step .cleanCbox r') :
    Outliving r' ∧ Emptied r' := by
  cases h.effect with
  | cleanCbox hs => exact outliving_cleanFrom (fun p hp => (hr.online p hp).1) hs

/-- When passes over the Cboxes and one `cleanCbox` have ended, however they
    interleaved, no Cbox has data of another one and every byte of the pools
    belongs to an online Cbox, exactly if every step meets `DisconnectOk`. A
    step that overruns a buffer of `BUFF_LEN` bytes with a longer record
    (`Abox.Radio.Fifo`, `Abox.Radio.Removal`) is none that returns. -/
theorem disconnect_iff (belongs : ℕ → DataInfo → Prop) {r r' : Subg}
    {pre post : List (Event × Subg)} (hpoll : r.poll = none) (hclean : r.cleaning = none)
    (hp : Path Subg.Step r (pre ++ (.cleanCbox, r') :: post))
    (hpass : ∀ x ∈ pre ++ post, x.1.OfPass) (hend : (last r' post).cleaning = none) :
    NoForeign belongs (last r' post).aboxInfo ∧ Covered (last r' post).aboxInfo ↔
      AllSteps DisconnectOk r (pre ++ (.cleanCbox, r') :: post) := by
  have hstart : Undisturbed r := ⟨hclean, fun p h => by rw [hpoll] at h; cases h⟩
  obtain ⟨hpre, hrest⟩ := path_append.1 hp
  obtain ⟨hmid, hok⟩ := undisturbed_run hpre (fun x hx => hpass x (by simp [hx])) hstart
  cases hrest with
  | cons hs hpost =>
    obtain ⟨hout, hempty⟩ := step_cleanCbox hmid hs
    obtain ⟨hlast, hiff⟩ := run_emptied_iff hpost (fun x hx => hpass x (by simp [hx])) hout
    have hoff := hlast.offline hend
    have hforeign : NoForeign belongs (last r' post).aboxInfo := by
      intro i hi
      omega
    have hcovered : Covered (last r' post).aboxInfo ↔ Emptied (last r' post) := by
      rw [covered_iff_of_offline hoff]
      exact ⟨fun h _ => h, fun h => h hend⟩
    rw [and_iff_right hforeign, hcovered, hiff, and_iff_right hempty, allSteps_append]
    constructor
    · exact fun h => ⟨hok, trivial, h⟩
    · exact fun h => h.2.2

/-! ## A poll that outlives the `cleanCbox` -/

/-- One Cbox is online, and a frame for it is queued. -/
def oneFrame : Subg :=
  { Subg.init with
    aboxInfo := (recvServerData (addCbox initAboxInformation fun _ => 1).2 frameTo1).2 }

/-- The Cbox is polled, and `cleanCbox` runs while the poll waits. -/
def outlivingEvents (answers : List Answer) : List Event :=
  [.traverseCbox, .cleanCbox, .cleanNext] ++ answers.map .rxData

/-- The answer with an empty `check_package2`. -/
def emptyAnswer : Answer where
  subgRecv := some [0, 0, 0, 0, 0x14, 0, 0]
  tick := 1
  linked := true

/-- No answer. -/
def noAnswer : Answer where
  subgRecv := none
  tick := 1
  linked := true

/-- The poll is answered once the `cleanCbox` has ended. -/
theorem disconnect_answered : ∃ r1 r2 post,
    exec (Subg.step 1) oneFrame (outlivingEvents [emptyAnswer]) =
      some ((.traverseCbox, r1) :: (.cleanCbox, r2) :: post) ∧
    (last r2 post).poll = none ∧ Covered (last r2 post).aboxInfo := by
  refine ⟨_, _, _, rfl, rfl, ?_⟩
  have hpath := exec_path (fun h => (⟨1, h⟩ : Subg.Step _ _ _))
    (show exec (Subg.step 1) oneFrame (outlivingEvents [emptyAnswer]) = some _ from rfl)
  refine ((disconnect_iff (fun _ _ => True) rfl rfl (show Path _ _ ([_] ++ _ :: _) from hpath)
    ?_ rfl).2 ?_).2
  · intro x hx
    simp only [List.cons_append, List.nil_append, List.mem_cons, List.not_mem_nil, or_false] at hx
    rcases hx with rfl | rfl | rfl
    · trivial
    · trivial
    · trivial
  · refine ⟨trivial, trivial, trivial, ?_, trivial⟩
    intro p _ _ _ hmiss
    exact absurd rfl (hmiss _ rfl).1

/-- The poll fails once the `cleanCbox` has ended, and puts its ten bytes back
    into the pool, where they belong to no one. -/
theorem poll_outlives_cleanCbox : ∃ r1 r2 post,
    exec (Subg.step 1) oneFrame (outlivingEvents (List.replicate 11 noAnswer)) =
      some ((.traverseCbox, r1) :: (.cleanCbox, r2) :: post) ∧
    (last r2 post).poll = none ∧ (last r2 post).cleaning = none ∧
    (last r2 post).aboxInfo.cboxOnlineNum = 0 ∧ ¬ Covered (last r2 post).aboxInfo := by
  refine ⟨_, _, _, rfl, rfl, rfl, rfl, fun hcov => ?_⟩
  obtain ⟨hempty, -⟩ := (covered_iff_of_offline rfl).1 hcov
  exact absurd hempty (by decide +kernel)

end Abox.Radio
