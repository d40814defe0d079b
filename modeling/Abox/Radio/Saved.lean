import Abox.Radio.Calls

/-!
# Radio data saved by a failed poll

What a failed poll has received from a Cbox is saved in `subgDataPool` and
restored by the next poll of the Cbox. In between the record moves in the pool
when other Cboxes restore theirs, and the Cbox moves in the table when others
are removed.

* `SavedPacked`: the saved records of the online Cboxes never overlap.
* `HasSaved`: the bytes saved for a Cbox stay the same, wherever they move.
* `restore_iff`: the bytes come back, but with the right number exactly when
  the record lies at the address that happens to be its length.
-/

namespace Abox.Radio

open Segments Loops Runs

/-! ## The saved records do not overlap -/

/-- The saved records of the online Cboxes are disjoint parts of the pool. -/
def SavedPacked (s : AboxInformation) : Prop :=
  Packed s.subgDataPool.entrySize ((records saved s).map DataInfo.seg)

/-- The bytes saved for the Cbox in slot `k`. -/
structure HasSaved (s : AboxInformation) (k : ℕ) (bytes : List Byte) : Prop where
  online : k < s.cboxOnlineNum
  pos : 0 < bytes.length
  length : (s.cboxInfo k).subgDataInfo.dataLength = bytes.length
  read : (s.cboxInfo k).subgDataInfo.seg.read s.subgDataPool.used = bytes

theorem saved_of_ne {c : CboxInformation} (h : c.subgDataInfo.dataLength ≠ 0) :
    saved c = [c.subgDataInfo] := if_neg h

theorem saved_of_eq {c : CboxInformation} (h : c.subgDataInfo.dataLength = 0) :
    saved c = [] := if_pos h

theorem HasSaved.saved_eq {s : AboxInformation} {k : ℕ} {bytes : List Byte}
    (h : HasSaved s k bytes) : saved (s.cboxInfo k) = [(s.cboxInfo k).subgDataInfo] :=
  saved_of_ne (by have := h.pos; have := h.length; omega)

theorem SavedPacked.inside {s : AboxInformation} (h : SavedPacked s) {i : ℕ} {d : DataInfo}
    (hi : i < s.cboxOnlineNum) (hd : d ∈ saved (s.cboxInfo i)) :
    d.seg.Inside s.subgDataPool.entrySize := packed_inside h hi hd

theorem SavedPacked.split {s : AboxInformation} (h : SavedPacked s) {i : ℕ}
    (hi : i < s.cboxOnlineNum) : Packed s.subgDataPool.entrySize
      ((saved (s.cboxInfo i) ++ others saved s i).map DataInfo.seg) := packed_split h hi

theorem SavedPacked.apart {s : AboxInformation} (h : SavedPacked s) {i k : ℕ} {d e : DataInfo}
    (hi : i < s.cboxOnlineNum) (hk : k < s.cboxOnlineNum) (hki : k ≠ i)
    (hd : d ∈ saved (s.cboxInfo i)) (he : e ∈ saved (s.cboxInfo k)) : d.seg.Apart e.seg :=
  packed_apart h hi hk hki hd he

theorem SameSaved.savedPacked {s s' : AboxInformation} (h : SameSaved s s')
    (hp : SavedPacked s) : SavedPacked s' := by
  unfold SavedPacked
  rw [h.records, h.pool]
  exact hp

theorem SameSaved.hasSaved {s s' : AboxInformation} (h : SameSaved s s') {k : ℕ}
    {bytes : List Byte} (hs : HasSaved s k bytes) : HasSaved s' k bytes :=
  ⟨by rw [h.online]; exact hs.online, hs.pos, by rw [h.info]; exact hs.length,
    by rw [h.info, h.pool]; exact hs.read⟩

/-! ## Restoring -/

/-- The records that are left after a restore, those of the other Cboxes moved up. -/
theorem Restored.segs_perm {s s' : AboxInformation} {i : ℕ} {r : DataInfo}
    (h : Restored s s' i r) (hi : i < s.cboxOnlineNum) :
    ((records saved s').map DataInfo.seg).Perm
      (((others saved s i).map DataInfo.seg).map (Seg.closeUp r.seg)) := by
  have hn := h.same.online
  have hoth : others saved s' i = (others saved s i).map (shiftDataAddr r) :=
    others_map hn hi h.list
  have hperm := records_perm (f := saved) (s := s') (i := i) (by rw [hn]; exact hi)
  rw [saved_of_eq (by rw [h.own]), List.nil_append, hoth] at hperm
  rw [← map_seg_shift]
  exact hperm.map _

theorem Restored.savedPacked {s s' : AboxInformation} {i : ℕ} {r : DataInfo}
    (h : Restored s s' i r) (hi : i < s.cboxOnlineNum) (hr : saved (s.cboxInfo i) = [r])
    (hp : SavedPacked s) : SavedPacked s' := by
  have hsplit := hp.split hi
  rw [hr, List.singleton_append, List.map_cons] at hsplit
  unfold SavedPacked
  rw [h.entrySize]
  exact hsplit.closeUp.perm (h.segs_perm hi).symm

theorem Restored.hasSaved {s s' : AboxInformation} {i k : ℕ} {r : DataInfo} {bytes : List Byte}
    (h : Restored s s' i r) (hi : i < s.cboxOnlineNum) (hr : saved (s.cboxInfo i) = [r])
    (hp : SavedPacked s) (hki : k ≠ i) (hs : HasSaved s k bytes) : HasSaved s' k bytes := by
  have hr' : r ∈ saved (s.cboxInfo i) := by simp [hr]
  have hk' : (s.cboxInfo k).subgDataInfo ∈ saved (s.cboxInfo k) := by simp [hs.saved_eq]
  have hmoved : (s'.cboxInfo k).subgDataInfo = shiftDataAddr r (s.cboxInfo k).subgDataInfo := by
    have := h.list k hs.online hki
    rw [hs.saved_eq, List.map_singleton] at this
    by_cases h0 : (s'.cboxInfo k).subgDataInfo.dataLength = 0
    · rw [saved_of_eq h0] at this
      cases this
    · rw [saved_of_ne h0] at this
      exact List.singleton_inj.1 this
  have hlen : (shiftDataAddr r (s.cboxInfo k).subgDataInfo).dataLength =
      (s.cboxInfo k).subgDataInfo.dataLength := by
    unfold shiftDataAddr
    split_ifs <;> rfl
  refine ⟨by rw [h.same.online]; exact hs.online, hs.pos, ?_, ?_⟩
  · rw [hmoved, hlen]
    exact hs.length
  · rw [hmoved, seg_shiftDataAddr, h.used, Seg.read_remove]
    · exact hs.read
    · rw [length_used]
      exact hp.inside hi hr'
    · rw [length_used]
      exact hp.inside hs.online hk'
    · exact hp.apart hi hs.online hki hr' hk'

/-- A record that fills the pool is the only one. -/
theorem SavedPacked.alone {s : AboxInformation} (hp : SavedPacked s) {i : ℕ}
    (hi : i < s.cboxOnlineNum)
    (hfull : subgDataPoolSize ≤ (s.cboxInfo i).subgDataInfo.dataLength) :
    ∀ k < s.cboxOnlineNum, k ≠ i → saved (s.cboxInfo k) = [] := by
  have hpos : 0 < subgDataPoolSize := by decide
  have hr : (s.cboxInfo i).subgDataInfo ∈ saved (s.cboxInfo i) := by
    rw [saved_of_ne (by omega)]
    exact List.mem_singleton_self _
  have hle := s.subgDataPool.entry_le
  intro k hk hki
  by_contra hne
  obtain ⟨e, he⟩ := List.exists_mem_of_ne_nil _ hne
  obtain ⟨-, h1, h2⟩ := hp.inside hi hr
  obtain ⟨h3, h4, h5⟩ := hp.inside hk he
  have hap := hp.apart hi hk hki hr he
  unfold Seg.Apart at hap
  simp only [DataInfo.seg] at *
  omega

/-- Then its bytes are not copied, and the pool is emptied. -/
theorem processExistingData_full {s : AboxInformation} {i : ℕ} (saveBuff : List Byte)
    (hfull : subgDataPoolSize ≤ (s.cboxInfo i).subgDataInfo.dataLength) :
    processExistingData s i saveBuff =
      (saveBuff, 0, { s with subgDataPool := cleanPool s.subgDataPool }.modifyCbox i
        fun c => { c with subgDataInfo := ⟨0, 0⟩ }) := by
  have hpos : 0 < subgDataPoolSize := by decide
  simp only [processExistingData]
  rw [if_neg (by omega), if_pos hfull]

/-- No saved records are left. -/
theorem SavedPacked.records_full {s : AboxInformation} (hp : SavedPacked s) {i : ℕ}
    (hi : i < s.cboxOnlineNum)
    (hfull : subgDataPoolSize ≤ (s.cboxInfo i).subgDataInfo.dataLength) :
    records saved ({ s with subgDataPool := cleanPool s.subgDataPool }.modifyCbox i
      fun c => { c with subgDataInfo := ⟨0, 0⟩ }) = [] := by
  refine List.flatMap_eq_nil_iff.2 fun k hk => ?_
  rw [AboxInformation.modifyCbox_cboxInfo]
  split_ifs with hki
  · exact saved_of_eq rfl
  · exact hp.alone hi hfull k (List.mem_range.1 hk) hki

/-- A restore at slot `i` keeps the records apart and the bytes of the other
    Cboxes. -/
theorem processExistingData_savedPacked {s : AboxInformation} {i : ℕ} (saveBuff : List Byte)
    (hi : i < s.cboxOnlineNum) (hp : SavedPacked s) :
    SavedPacked (processExistingData s i saveBuff).2.2 ∧
      ((processExistingData s i saveBuff).2.2.cboxInfo i).subgDataInfo.dataLength = 0 ∧
      ∀ k bytes, k ≠ i → HasSaved s k bytes →
        HasSaved (processExistingData s i saveBuff).2.2 k bytes := by
  by_cases h0 : (s.cboxInfo i).subgDataInfo.dataLength = 0
  · have heq : processExistingData s i saveBuff = (saveBuff, 0, s) := by
      simp [processExistingData, h0]
    rw [heq]
    exact ⟨hp, h0, fun k bytes _ hs => hs⟩
  · have hr := saved_of_ne h0
    have hin := hp.inside hi (d := (s.cboxInfo i).subgDataInfo) (by simp [hr])
    by_cases hlt : (s.cboxInfo i).subgDataInfo.dataLength < subgDataPoolSize
    · obtain ⟨s', heq, hres⟩ := processExistingData_eq saveBuff rfl hin hlt
      rw [heq]
      exact ⟨hres.savedPacked hi hr hp, by rw [hres.own], fun k bytes hki hs =>
        hres.hasSaved hi hr hp hki hs⟩
    · -- the record fills the pool, so there is no other one
      have hfull := Nat.le_of_not_lt hlt
      rw [processExistingData_full saveBuff hfull]
      refine ⟨?_, ?_, fun k bytes hki hs => ?_⟩
      · unfold SavedPacked
        rw [hp.records_full hi hfull]
        exact Packed.nil _
      · rw [AboxInformation.modifyCbox_cboxInfo, if_pos rfl]
      · have := hp.alone hi hfull k hs.online hki
        rw [hs.saved_eq] at this
        cases this

/-! ## Saving -/

theorem records_saved_perm {s s' : AboxInformation} {i : ℕ}
    (hn : s'.cboxOnlineNum = s.cboxOnlineNum) (hi : i < s.cboxOnlineNum)
    (h : ∀ j, j ≠ i → saved (s'.cboxInfo j) = saved (s.cboxInfo j)) :
    (records saved s').Perm (saved (s'.cboxInfo i) ++ others saved s i) := by
  have hoth : others saved s' i = others saved s i := others_congr hn hi fun j _ hji => h j hji
  rw [← hoth]
  exact records_perm (by rw [hn]; exact hi)

theorem Stored.saved_eq {s s' : AboxInformation} {i : ℕ} {bytes : List Byte}
    (h : Stored s s' i bytes) {j : ℕ} (hji : j ≠ i) :
    saved (s'.cboxInfo j) = saved (s.cboxInfo j) := by
  unfold saved
  rw [h.list j hji]

theorem Stored.savedPacked {s s' : AboxInformation} {i : ℕ} {bytes : List Byte}
    (h : Stored s s' i bytes) (h0 : 0 < bytes.length) (hp : SavedPacked s) : SavedPacked s' := by
  unfold SavedPacked
  rw [h.entrySize]
  by_cases hi : i < s.cboxOnlineNum
  · have hperm := records_saved_perm h.same.online hi fun j hji => h.saved_eq hji
    have hown : saved (s'.cboxInfo i) = [nextRecord s.subgDataPool bytes.length] := by
      rw [← h.own]
      exact saved_of_ne (by rw [h.own]; simp only [nextRecord]; omega)
    rw [hown] at hperm
    refine Packed.perm ?_ (hperm.map _).symm
    have hrest : Packed s.subgDataPool.entrySize ((others saved s i).map DataInfo.seg) :=
      (hp.split hi).sublist (by simp)
    exact hrest.append h0
  · have hrec : records saved s' = records saved s :=
      records_congr h.same.online fun j hj => h.saved_eq (by omega)
    rw [hrec]
    exact hp.mono (by omega)

theorem Stored.hasSaved {s s' : AboxInformation} {i k : ℕ} {bytes bs : List Byte}
    (h : Stored s s' i bytes) (hp : SavedPacked s) (hki : k ≠ i) (hs : HasSaved s k bs) :
    HasSaved s' k bs := by
  refine ⟨by rw [h.same.online]; exact hs.online, hs.pos, by rw [h.list k hki]; exact hs.length, ?_⟩
  rw [h.list k hki, h.used, Seg.read_append]
  · exact hs.read
  · rw [length_used]
    exact hp.inside hs.online (by simp [hs.saved_eq])

/-- A save that fits is what the slot has saved. -/
theorem Stored.hasSaved_self {s s' : AboxInformation} {i : ℕ} {bytes : List Byte}
    (h : Stored s s' i bytes) (hi : i < s.cboxOnlineNum) (h0 : 0 < bytes.length) :
    HasSaved s' i bytes := by
  refine ⟨by rw [h.same.online]; exact hi, h0, by rw [h.own]; rfl, ?_⟩
  rw [h.own, h.used]
  have := Seg.read_last s.subgDataPool.used bytes
  rwa [length_used] at this

theorem saveCboxRecv_savedPacked {s : AboxInformation} (i : ℕ) (cboxRecv : List Byte) (n : ℕ)
    (hp : SavedPacked s) : SavedPacked (saveCboxRecv s i cboxRecv n) ∧
      ∀ k bytes, k ≠ i → HasSaved s k bytes → HasSaved (saveCboxRecv s i cboxRecv n) k bytes := by
  by_cases hroom : RoomFor s.subgDataPool (n % 2 ^ 16)
  · have h := saveCboxRecv_of_roomFor i cboxRecv hroom
    exact ⟨h.savedPacked (by rw [length_readN]; exact hroom.1) hp,
      fun k bytes hki hs => h.hasSaved hp hki hs⟩
  · obtain ⟨hsame, hpool, hown, hlist⟩ :=
      saveCboxRecv_of_not i cboxRecv hroom
    constructor
    · unfold SavedPacked
      rw [hpool]
      by_cases hi : i < s.cboxOnlineNum
      · refine Packed.perm ?_ ((records_saved_perm hsame.online hi hlist).map _).symm
        refine (hp.split hi).sublist
          (List.Sublist.map _ (List.Sublist.append ?_ (List.Sublist.refl _)))
        rcases hown with h | h
        · rw [h]
          exact List.nil_sublist _
        · rw [h]
      · rw [records_congr hsame.online fun j hj => hlist j (by omega)]
        exact hp
    · intro k bytes hki hs
      have hk := hlist k hki
      rw [hs.saved_eq] at hk
      have hinfo : ((saveCboxRecv s i cboxRecv n).cboxInfo k).subgDataInfo =
          (s.cboxInfo k).subgDataInfo := by
        unfold saved at hk
        split_ifs at hk
        exact List.singleton_inj.1 hk
      exact ⟨by rw [hsame.online]; exact hs.online, hs.pos, by rw [hinfo]; exact hs.length,
        by rw [hinfo, hpool]; exact hs.read⟩

/-! ## Adding and removing a Cbox -/

theorem addCbox_savedPacked {s : AboxInformation} (p_dev_id : Fin devidTypeNum → BitVec 32)
    (hp : SavedPacked s) : SavedPacked (addCbox s p_dev_id).2 ∧
      ∀ k bytes, HasSaved s k bytes → HasSaved (addCbox s p_dev_id).2 k bytes := by
  rcases addCbox_cases s p_dev_id with heq | ⟨hn, -, hpool, hold, -, hnew, -⟩
  · rw [heq]
    exact ⟨hp, fun k bytes hs => hs⟩
  · constructor
    · unfold SavedPacked
      rw [hpool, records_addCbox hn hold hnew]
      exact hp
    · intro k bytes hs
      have hk := hold k hs.online
      exact ⟨by rw [hn]; exact Nat.lt_succ_of_lt hs.online, hs.pos, by rw [hk]; exact hs.length,
        by rw [hk, hpool]; exact hs.read⟩

theorem dropSaved_savedPacked {fuel : ℕ} {s t : AboxInformation} {i : ℕ}
    (hi : i < s.cboxOnlineNum) (h : dropSaved fuel s i = some t) (hp : SavedPacked s) :
    SavedPacked t ∧ saved (t.cboxInfo i) = [] ∧
      ∀ k bytes, k ≠ i → HasSaved s k bytes → HasSaved t k bytes := by
  have hinv := whileLoop_inv (fun t => t.cboxOnlineNum = s.cboxOnlineNum ∧ SavedPacked t ∧
    ∀ k bytes, k ≠ i → HasSaved s k bytes → HasSaved t k bytes) ?_ h
    ⟨rfl, hp, fun k bytes _ hs => hs⟩
  · obtain ⟨⟨-, hpt, hst⟩, hcond⟩ := hinv
    exact ⟨hpt, saved_of_eq (by simpa using hcond), hst⟩
  · rintro u v ⟨hn, hpu, hsu⟩ - hv
    obtain rfl := Option.some.inj hv
    obtain ⟨hpv, -, hsv⟩ := processExistingData_savedPacked (List.replicate buffLen 0)
      (show i < u.cboxOnlineNum by omega) hpu
    exact ⟨(processExistingData_sameQueues ..).online.trans hn, hpv,
      fun k bytes hki hs => hsv k bytes hki (hsu k bytes hki hs)⟩

/-- The slot of the Cbox of slot `k` once slot `i` has been removed. -/
def slotAfterRemove (i k : ℕ) : ℕ := if i < k then k - 1 else k

theorem skip_slotAfterRemove {i k : ℕ} (h : k ≠ i) : skip i (slotAfterRemove i k) = k := by
  unfold skip slotAfterRemove
  split_ifs <;> omega

theorem removeCbox_savedPacked {fuel : ℕ} {s s' : AboxInformation} {i : ℕ}
    (h : removeCbox fuel s i = some s') (hp : SavedPacked s) : SavedPacked s' ∧
      ∀ k bytes, k ≠ i → HasSaved s k bytes → HasSaved s' (slotAfterRemove i k) bytes := by
  by_cases hi : i < s.cboxOnlineNum
  · obtain ⟨t, u, ht, hu, rfl⟩ := removeCbox_eq hi h
    obtain ⟨hpt, hnil, hst⟩ := dropSaved_savedPacked hi ht hp
    have hsame := (dropQueue_sameSaved hu).1
    have hn : u.cboxOnlineNum = s.cboxOnlineNum :=
      hsame.online.trans (dropSaved_sameQueues ht).online
    constructor
    · have hpu := (hsame.savedPacked hpt).split (i := i) (by rw [hn]; exact hi)
      have hnilu : saved (u.cboxInfo i) = [] := by
        unfold saved at hnil ⊢
        rw [hsame.info i]
        exact hnil
      rw [hnilu, List.nil_append] at hpu
      unfold SavedPacked
      rw [records_moveCboxesDown]
      exact hpu
    · intro k bytes hki hs
      have hsu := hsame.hasSaved (hst k bytes hki hs)
      have hlt : slotAfterRemove i k < u.cboxOnlineNum - 1 := by
        have := hs.online
        unfold slotAfterRemove
        split_ifs <;> omega
      have hmove := moveCboxesDown_cboxInfo (s := u) (i := i) hlt
      rw [skip_slotAfterRemove hki] at hmove
      exact ⟨hlt, hsu.pos, by rw [hmove]; exact hsu.length, by rw [hmove]; exact hsu.read⟩
  · obtain rfl := removeCbox_of_offline hi h
    refine ⟨hp, fun k bytes _ hs => ?_⟩
    have := hs.online
    rw [slotAfterRemove, if_neg (by omega)]
    exact hs

theorem cleanCbox_savedPacked {fuel : ℕ} {s s' : AboxInformation}
    (h : cleanCbox fuel s = some s') : SavedPacked s' := by
  unfold cleanCbox at h
  obtain ⟨⟨t, k⟩, -, h⟩ := Option.bind_eq_some_iff.1 h
  obtain rfl := Option.some.inj h
  exact Packed.nil 0

/-! ## Runs -/

/-- The call neither restores, overwrites nor removes the record of slot `k`. -/
def LeavesSaved (k : ℕ) : Call → Prop
  | .processExistingData i _ => i ≠ k
  | .saveCboxRecv i _ _ => i ≠ k
  | .removeCbox i => i ≠ k
  | .cleanCbox => False
  | _ => True

/-- The slot, after a call, of the Cbox that was in slot `k`. -/
def slotAfter (k : ℕ) : Call → ℕ
  | .removeCbox i => slotAfterRemove i k
  | _ => k

/-- The slot, after a run, of the Cbox that was in slot `k`. -/
def slotAfterRun (k : ℕ) (tr : List (Call × System)) : ℕ :=
  tr.foldl (fun k p => slotAfter k p.1) k

/-- No call of the run touches the record of the Cbox in slot `k`. -/
def RunLeavesSaved : ℕ → List (Call × System) → Prop
  | _, [] => True
  | k, (c, _) :: tr => LeavesSaved k c ∧ RunLeavesSaved (slotAfter k c) tr

theorem trySave_sameSaved (s : System) (recv : List Byte) :
    SameSaved s.aboxInfo (s.trySave recv).aboxInfo := by
  rcases trySave_cases s recv with ⟨-, heq | ⟨i, -, -, hput⟩⟩ | ⟨-, heq⟩
  · rw [heq]
    exact SameSaved.refl _
  · exact hput.same
  · rw [heq]
    exact ⟨rfl, rfl, fun _ => rfl⟩

theorem requeueSend_sameSaved (s : AboxInformation) (i : ℕ) (send : List Byte) (n : ℕ) :
    SameSaved s (requeueSend s i send n) :=
  (requeueSend_listsChanged s i send n).sameSaved

/-- One call keeps the saved records apart, and the bytes of a Cbox it does not
    concern. -/
theorem step_savedPacked {s s' : System} {c : Call} (h : s.Step c s')
    (hp : SavedPacked s.aboxInfo) : SavedPacked s'.aboxInfo ∧
      ∀ k bytes, LeavesSaved k c → HasSaved s.aboxInfo k bytes →
        HasSaved s'.aboxInfo (slotAfter k c) bytes := by
  have hsame {t : System} (ht : SameSaved s.aboxInfo t.aboxInfo) : SavedPacked t.aboxInfo ∧
      ∀ k bytes, HasSaved s.aboxInfo k bytes → HasSaved t.aboxInfo k bytes :=
    ⟨ht.savedPacked hp, fun k bytes hs => ht.hasSaved hs⟩
  cases h.effect with
  | processDataFromServer => exact ⟨hp, fun k bytes _ hs => hs⟩
  | recvServerData recv =>
    obtain ⟨h1, h2⟩ := hsame (trySave_sameSaved s recv)
    exact ⟨h1, fun k bytes _ hs => h2 k bytes hs⟩
  | @retry recv =>
    obtain ⟨h1, h2⟩ := hsame (trySave_sameSaved s recv)
    exact ⟨h1, fun k bytes _ hs => h2 k bytes hs⟩
  | @getPoolDate i =>
    have hst := getPoolDate_sameSaved s.aboxInfo i
    exact ⟨hst.savedPacked hp, fun k bytes _ hs => hst.hasSaved hs⟩
  | requeueSend i send n =>
    have hst := requeueSend_sameSaved s.aboxInfo i send n
    exact ⟨hst.savedPacked hp, fun k bytes _ hs => hst.hasSaved hs⟩
  | processExistingData saveBuff hi =>
    obtain ⟨h1, -, h2⟩ := processExistingData_savedPacked saveBuff hi hp
    exact ⟨h1, fun k bytes hk hs => h2 k bytes (Ne.symm hk) hs⟩
  | saveCboxRecv i cboxRecv n =>
    obtain ⟨h1, h2⟩ := saveCboxRecv_savedPacked i cboxRecv n hp
    exact ⟨h1, fun k bytes hk hs => h2 k bytes (Ne.symm hk) hs⟩
  | addCbox p_dev_id =>
    obtain ⟨h1, h2⟩ := addCbox_savedPacked p_dev_id hp
    exact ⟨h1, fun k bytes _ hs => h2 k bytes hs⟩
  | removeCbox ha =>
    obtain ⟨h1, h2⟩ := removeCbox_savedPacked ha hp
    exact ⟨h1, fun k bytes hk hs => h2 k bytes (Ne.symm hk) hs⟩
  | cleanCbox ha => exact ⟨cleanCbox_savedPacked ha, fun k bytes hk _ => hk.elim⟩

theorem savedPacked_init : SavedPacked System.init.aboxInfo := Packed.nil 0

theorem savedPacked_run {tr : List (Call × System)} (h : Path System.Step System.init tr) :
    SavedPacked (last System.init tr).aboxInfo :=
  (h.always (fun s : System => SavedPacked s.aboxInfo)
    (fun hp hs => (step_savedPacked hs hp).1) savedPacked_init).last

theorem hasSaved_run {s : System} {tr : List (Call × System)} {k : ℕ} {bytes : List Byte}
    (h : Path System.Step s tr) (hp : SavedPacked s.aboxInfo) (hs : HasSaved s.aboxInfo k bytes)
    (htr : RunLeavesSaved k tr) :
    SavedPacked (last s tr).aboxInfo ∧
      HasSaved (last s tr).aboxInfo (slotAfterRun k tr) bytes := by
  induction h generalizing k with
  | nil s => exact ⟨hp, hs⟩
  | cons hstep _ ih =>
    obtain ⟨hp', hs'⟩ := step_savedPacked hstep hp
    exact ih hp' (hs' k bytes htr.1 hs) htr.2

/-- A restore gives back the bytes, and the address of their record as their
    number. -/
theorem HasSaved.restore {s : AboxInformation} {k : ℕ} {bytes : List Byte}
    (hs : HasSaved s k bytes) (hp : SavedPacked s) (hlt : bytes.length < subgDataPoolSize)
    (saveBuff : List Byte) :
    (processExistingData s k saveBuff).1.take bytes.length = bytes ∧
      ((processExistingData s k saveBuff).2.1 : ℤ) = (s.cboxInfo k).subgDataInfo.dataAddr := by
  have hin := hp.inside hs.online (d := (s.cboxInfo k).subgDataInfo) (by simp [hs.saved_eq])
  obtain ⟨s', heq, -⟩ := processExistingData_eq saveBuff rfl hin
    (by rw [hs.length]; exact hlt)
  rw [heq, hs.read]
  refine ⟨List.take_left .., ?_⟩
  exact Int.toNat_of_nonneg hin.2.1

/-- After any calls that do not concern the Cbox, its next poll gets the bytes
    that were saved together with their number exactly when the record lies at
    an address equal to its length. A call in between that overruns a buffer of
    `BUFF_LEN` bytes with a longer record (`Abox.Radio.Removal`) is none that
    returns. -/
theorem restore_iff {pre mid : List (Call × System)} {s : System} {k n : ℕ}
    {cboxRecv saveBuff : List Byte} (hpre : Path System.Step System.init pre)
    (hk : k < (last System.init pre).aboxInfo.cboxOnlineNum) (hrecv : cboxRecv.length = buffLen)
    (hn : 1 ≤ n ∧ n ≤ buffLen)
    (hroom : RoomFor (last System.init pre).aboxInfo.subgDataPool n)
    (hsave : (last System.init pre).Step (.saveCboxRecv k cboxRecv n) s)
    (hmid : Path System.Step s mid) (hleaves : RunLeavesSaved k mid) :
    ((processExistingData (last s mid).aboxInfo (slotAfterRun k mid) saveBuff).1.take n =
          cboxRecv.take n ∧
        (processExistingData (last s mid).aboxInfo (slotAfterRun k mid) saveBuff).2.1 = n) ↔
      ((last s mid).aboxInfo.cboxInfo (slotAfterRun k mid)).subgDataInfo.dataAddr =
        ((last s mid).aboxInfo.cboxInfo (slotAfterRun k mid)).subgDataInfo.dataLength := by
  have hp := savedPacked_run hpre
  have hmod : n % 2 ^ 16 = n := Nat.mod_eq_of_lt (by unfold buffLen at hn; omega)
  have hbytes : readN cboxRecv n = cboxRecv.take n := readN_of_le (by omega)
  have hlen : (cboxRecv.take n).length = n := by rw [List.length_take]; omega
  have hsaved : HasSaved s.aboxInfo k (cboxRecv.take n) := by
    obtain ⟨fuel, hsave⟩ := hsave
    simp only [System.step, Option.ite_none_right_eq_some, Option.some.injEq] at hsave
    obtain ⟨-, rfl⟩ := hsave
    have hst := saveCboxRecv_of_roomFor k cboxRecv (hmod.symm ▸ hroom)
    rw [hmod, hbytes] at hst
    exact hst.hasSaved_self hk (by omega)
  obtain ⟨hpt, hst⟩ := hasSaved_run hmid (step_savedPacked hsave hp).1 hsaved hleaves
  obtain ⟨hback, hnum⟩ := hst.restore hpt (by
    rw [hlen]; unfold subgDataPoolSize; unfold buffLen at hn; omega) saveBuff
  rw [hlen] at hback
  rw [hst.length, hlen, ← hnum]
  constructor
  · rintro ⟨-, h⟩
    rw [h]
  · intro h
    exact ⟨hback, by exact_mod_cast h⟩

/-- Five bytes received in a failed poll. -/
def fiveBytes : List Byte := [0x24, 1, 2, 3, 4] ++ List.replicate 1019 0

/-- Two Cboxes register and the first one saves five bytes. -/
def firstSave : List Call :=
  [.addCbox fun _ => 1, .addCbox fun _ => 2, .saveCboxRecv 0 fiveBytes 5]

/-- The second record of five bytes lies at the address 5: it is restored with
    its number. -/
theorem restore_second : ∃ tr s, exec (System.step 0) System.init firstSave = some tr ∧
    (last System.init tr).Step (.saveCboxRecv 1 fiveBytes 5) s ∧
    (processExistingData s.aboxInfo 1 []).1.take 5 = fiveBytes.take 5 ∧
      (processExistingData s.aboxInfo 1 []).2.1 = 5 := by
  refine ⟨_, _, rfl, ⟨0, rfl⟩, ?_⟩
  have hpre := exec_path (fun h => (⟨0, h⟩ : System.Step _ _ _))
    (show exec (System.step 0) System.init firstSave = some _ from rfl)
  exact (restore_iff hpre (by decide) (by decide +kernel) (by decide)
    (by decide +kernel) ⟨0, rfl⟩ (.nil _) trivial).2 (by decide +kernel)

/-- A restore of the only record, at the address 0, returns 0 for five bytes. -/
theorem restore_first : ∃ s t : System,
    System.init.Step (.addCbox fun _ => 1) s ∧ s.Step (.saveCboxRecv 0 fiveBytes 5) t ∧
    ¬ ((processExistingData t.aboxInfo 0 []).1.take 5 = fiveBytes.take 5 ∧
      (processExistingData t.aboxInfo 0 []).2.1 = 5) := by
  refine ⟨_, _, ⟨0, rfl⟩, ⟨0, rfl⟩, fun h => ?_⟩
  exact absurd h.2 (by decide +kernel)

end Abox.Radio
