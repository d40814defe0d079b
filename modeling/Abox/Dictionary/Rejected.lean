import Abox.Dictionary.Reboot

/-!
# Lists of servers that are not accepted

`del_smd4_func`, `writeServerInfo` and `controlServerInfo` compare the count only with its
largest value, as an `int`. A negative count passes all three, and the record that is
written then does not pass the test of the next request, which replaces it.

* `ignored_iff`: which of the wrong counts the device ignores.
-/

namespace Abox.Dictionary

open Server Config Update

/-- A `READ_SERVER_INFO`. -/
def Read (s s' : ServerSystem) : Prop :=
  ∃ RWriteInfo read, controlServerInfo s .readServerInfo RWriteInfo = some (s', read)

/-- A command that has no effect: no reply and no restart, and the record stays what it is
    when it is read again, any number of times. -/
structure Ignored (appId : BitVec 32) (d : DictionaryInfo) (stack : List Byte) (s : ServerSystem)
    (rev : List Byte) : Prop where
  silent : ∃ s', del_smd4_func appId s rev = some (s', none)
  runs : (recv_dic_cmd appId d stack s rev).reboots = false
  kept : ∀ {s' reply}, del_smd4_func appId s rev = some (s', reply) →
    ∀ {t}, Relation.ReflTransGen Read s' t → t.stored = s.stored

/-! ## Reading a record -/

theorem read_stored {s s' : ServerSystem} (h : Read s s') : s'.stored = s.stored.checked := by
  obtain ⟨RWriteInfo, read, h⟩ := h
  obtain ⟨t, ht, hst, -⟩ := controlServerInfo_read s RWriteInfo
  rw [ht] at h
  obtain ⟨rfl, -⟩ := Prod.mk.inj (Option.some.inj h)
  exact hst

/-- A valid record is not repaired. -/
theorem reads_stored {s t : ServerSystem} (h : Relation.ReflTransGen Read s t)
    (hs : s.stored.valid = true) : t.stored = s.stored := by
  induction h with
  | refl => rfl
  | tail _ hread ih => rw [read_stored hread, ih, checked_of_valid hs]

/-! ## The count -/

/-- The test of `del_smd4_func` (line 373). -/
def CountTest (count : BitVec 32) : Prop := count ≠ 0 ∧ count.toInt < serverNumMax

theorem del_smd4_func_of_not {appId : BitVec 32} {s : ServerSystem} {rev : List Byte}
    (h : ¬ CountTest (frameCount rev)) : del_smd4_func appId s rev = some (s, none) := by
  rw [← frameServerInfo_num] at h
  exact if_neg h

/-- A list that passes the test is written, and what a read finds then is in the reply. -/
theorem del_smd4_func_of_test (appId : BitVec 32) (s : ServerSystem) {rev : List Byte}
    (h : CountTest (frameCount rev)) :
    ∃ s' f, del_smd4_func appId s rev = some (s', some f) ∧
      s'.stored = (writtenServerInfo (frameServerInfo rev)).checked := by
  rw [← frameServerInfo_num] at h
  have hmax : (frameServerInfo rev).num ≤ 4 := Int.lt_add_one_iff.1 h.2
  obtain ⟨s1, hwrite, hst1⟩ := writeServerInfo_eq s hmax
  obtain ⟨s2, hread, hst2⟩ := readServerInfo_eq s1
  obtain ⟨h1, h5⟩ := num_of_valid (checked_valid s1.stored)
  obtain ⟨f, hsend, -⟩ := sendCmd122_frame appId tcmd121ScmdServerInfo hread h1 h5
  refine ⟨s2, f, ?_, hst1 ▸ hst2⟩
  have htest : (frameServerInfo rev).serverNetNum ≠ 0 ∧
      (frameServerInfo rev).num < serverNumMax := h
  simp only [del_smd4_func, if_pos htest, hwrite, hsend, Option.bind_eq_bind, Option.bind_some]
  rfl

/-- A negative count leaves only the built-in server. -/
theorem checked_writtenServerInfo {r : ServerNetInformation} (h : r.num < 0) :
    (writtenServerInfo r).checked = defaultServerInfo := by
  have hnum : (writtenServerInfo r).num < 1 := by
    show (r.serverNetNum + 1).toInt < 1
    have hr : r.serverNetNum.toInt < 0 := h
    rw [BitVec.toInt_eq_toNat_cond] at hr ⊢
    have hone : (1 : BitVec 32).toNat = 1 := rfl
    rw [BitVec.toNat_add, hone]
    split_ifs at hr ⊢ <;> omega
  exact if_neg fun hvalid => absurd (num_of_valid hvalid).1 (not_le.2 hnum)

/-- For a negative count the device restarts, with the built-in server only. -/
theorem del_smd4_func_of_neg (appId : BitVec 32) (d : DictionaryInfo) (stack : List Byte)
    (s : ServerSystem) {frame rev : List Byte} (h : Received tcmd121ScmdServerInfo frame rev)
    (hneg : (frameCount rev).toInt < 0) :
    ∃ s' f, del_smd4_func appId s rev = some (s', some f) ∧ s'.stored = defaultServerInfo ∧
      (recv_dic_cmd appId d stack s rev).reboots = true := by
  have htest : CountTest (frameCount rev) := by
    refine ⟨fun hzero => ?_, lt_trans hneg (by decide)⟩
    rw [hzero] at hneg
    exact absurd hneg (by decide)
  obtain ⟨s', f, hdel, hst⟩ := del_smd4_func_of_test appId s htest
  have hnum : (frameServerInfo rev).num < 0 := by
    show (frameServerInfo rev).serverNetNum.toInt < 0
    rwa [frameServerInfo_num]
  have hcmd : recv_dic_cmd appId d stack s rev = .serverInfo s' (some f) := by
    simp only [recv_dic_cmd, h.scmd, hdel]
    rfl
  exact ⟨s', f, hdel, hst.trans (checked_writtenServerInfo hnum), by rw [hcmd]; rfl⟩

/-- Outside 1 to 4, only the negative counts pass the test. -/
theorem countTest_iff {count : BitVec 32} (h : ¬ (1 ≤ count.toInt ∧ count.toInt ≤ 4)) :
    CountTest count ↔ count.toInt < 0 := by
  have hmax : (serverNumMax : ℤ) = 5 := rfl
  have hzero : count = 0 ↔ count.toInt = 0 := by
    rw [← BitVec.toInt_inj]
    rfl
  rw [CountTest, ne_eq, hzero, hmax]
  omega

/-- A count inside the frame is not affected by what is behind it. -/
theorem frameCount_append {frame : List Byte} (h : 14 ≤ frame.length) (slot : List Byte) :
    frameCount (frame ++ slot) = frameCount frame :=
  u32At_append h slot

/-- A list with a wrong count is ignored unless the count is negative. The count is what is
    read from the slot; for a frame of 14 bytes or more it is inside the frame
    (`frameCount_append`). -/
theorem ignored_iff (appId : BitVec 32) (d : DictionaryInfo) (stack : List Byte) {s : ServerSystem}
    {frame rev : List Byte} (h : Received tcmd121ScmdServerInfo frame rev)
    (hs : s.stored.valid = true)
    (hcount : ¬ (1 ≤ (frameCount rev).toInt ∧ (frameCount rev).toInt ≤ 4)) :
    Ignored appId d stack s rev ↔ 0 ≤ (frameCount rev).toInt := by
  constructor
  · rintro ⟨⟨s', hsilent⟩, -, -⟩
    by_contra hneg
    obtain ⟨t, f, hdel, -⟩ :=
      del_smd4_func_of_test appId s ((countTest_iff hcount).2 (not_le.1 hneg))
    rw [hdel] at hsilent
    cases hsilent
  · intro hpos
    have hdel : del_smd4_func appId s rev = some (s, none) :=
      del_smd4_func_of_not fun htest => absurd ((countTest_iff hcount).1 htest) (not_lt.2 hpos)
    have hcmd : recv_dic_cmd appId d stack s rev = .serverInfo s none := by
      simp only [recv_dic_cmd, h.scmd, hdel]
      rfl
    refine ⟨⟨s, hdel⟩, by rw [hcmd]; rfl, fun hdone t hreads => ?_⟩
    rw [hdel] at hdone
    obtain ⟨rfl, -⟩ := Prod.mk.inj (Option.some.inj hdone)
    exact reads_stored hreads hs

/-- The counts 5 and -1; and a record with a second server. -/
def fiveServers : List Byte := [0x24, 121, 1, 0, 0, 0, 6, 0, 4, 0, 5, 0, 0, 0, 81, 125]
def negativeServers : List Byte :=
  [0x24, 121, 1, 0, 0, 0, 6, 0, 4, 0, 0xFF, 0xFF, 0xFF, 0xFF, 80, 37]
def twoServerInfo : ServerNetInformation := { defaultServerInfo with serverNetNum := 2 }

theorem received_fiveServers :
    Received tcmd121ScmdServerInfo fiveServers (inSlot 0xA5 fiveServers) := by
  have h : WellFormed fiveServers :=
    ⟨by decide, by decide, by decide, by decide, by decide +kernel⟩
  exact received_inSlot h rfl rfl 0xA5

theorem received_negativeServers :
    Received tcmd121ScmdServerInfo negativeServers (inSlot 0 negativeServers) := by
  have h : WellFormed negativeServers :=
    ⟨by decide, by decide, by decide, by decide, by decide +kernel⟩
  exact received_inSlot h rfl rfl 0

theorem ignored_five : ∃ m, setSerInfo (fun _ => 0xFF) twoServerInfo = some m ∧
    Ignored 1 zeroDictionary [] ⟨m, 0, none⟩ (inSlot 0xA5 fiveServers) := by
  obtain ⟨m, hm, hst⟩ := stored_setSerInfo (fun _ => 0xFF) twoServerInfo
  have hvalid : (ServerSystem.stored ⟨m, 0, none⟩).valid = true := by
    show (stored m).valid = true
    rw [hst]
    decide
  have hcount : frameCount (inSlot 0xA5 fiveServers) = 5 := frameCount_append (by decide) _
  have hpos : 0 ≤ (frameCount (inSlot 0xA5 fiveServers)).toInt := by
    rw [hcount]
    decide
  exact ⟨m, hm, (ignored_iff 1 zeroDictionary [] received_fiveServers hvalid
    (by rw [hcount]; decide)).2 hpos⟩

/-- The count -1 replaces a record with two servers by the built-in one, and restarts the
    device. -/
theorem negative_list_stored : ∃ m s' f,
    setSerInfo (fun _ => 0xFF) twoServerInfo = some m ∧ twoServerInfo.valid = true ∧
    stored m = twoServerInfo ∧
    Received tcmd121ScmdServerInfo negativeServers (inSlot 0 negativeServers) ∧
    (frameCount negativeServers).toInt = -1 ∧
    del_smd4_func 1 ⟨m, 0, none⟩ (inSlot 0 negativeServers) = some (s', some f) ∧
    s'.stored ≠ twoServerInfo ∧
    (recv_dic_cmd 1 zeroDictionary [] ⟨m, 0, none⟩ (inSlot 0 negativeServers)).reboots = true := by
  obtain ⟨m, hm, hst⟩ := stored_setSerInfo (fun _ => 0xFF) twoServerInfo
  have hneg : (frameCount (inSlot 0 negativeServers)).toInt < 0 := by
    rw [inSlot, frameCount_append (by decide)]
    decide
  obtain ⟨s', f, hdel, hst', hreboots⟩ := del_smd4_func_of_neg 1 zeroDictionary [] ⟨m, 0, none⟩
    received_negativeServers hneg
  have hne : s'.stored ≠ twoServerInfo := by
    rw [hst']
    exact fun heq => absurd (congrArg ServerNetInformation.serverNetNum heq) (by decide)
  exact ⟨m, s', f, hm, by decide, hst, received_negativeServers, by decide, hdel, hne, hreboots⟩

end Abox.Dictionary
