import Abox.Lib.Loops
import Abox.Log.Lines

/-!
# Writing and sending the log

The loops of `analysis_reason` and `send_log_to_server` (`Abox_log.c` lines 861–904 and
1038–1088). The test of `max` sees the 0 that it starts with, so the loops run over the
number of all records ever made. A number that is no slot of the ring gives lines
without text, but `get_each_txt` takes it modulo 256, and the second loop counts
modulo 65536.

* `dump_iff`: the records of the ring are written and sent once each if and only if at
  most 256 records have been made.
* `sendSheet_loops`: from 65536 records on, and as long as their number is not negative
  as an `int`, sending does not end.
-/

namespace Abox.Log

open Loops

/-! ## The loops -/

/-- A line of the record number `index` behind what there is, with the buffer of
    `ipaddr_ntoa`. -/
def addLine (sheet : LogSheet) (index : Byte) :
    List Byte × List Byte → EachLine → List Byte × List Byte
  | (txt, str), j =>
    let (line, str) := get_each_txt sheet j index str
    (txt ++ line, str)

/-- The lines of the record number `index`, behind `txt`. -/
def eachLines (sheet : LogSheet) (index : Byte) (txt str : List Byte) : List Byte × List Byte :=
  EachLine.all.foldl (addLine sheet index) (txt, str)

/-- The lines of the sheet. -/
def logLines (sheet : LogSheet) : List Byte := LogLine.all.flatMap (get_log_txt sheet)

/-- `max` behind the test (lines 888–891 and 1067–1070). -/
def dumpMax (sheet : LogSheet) : ℤ :=
  let max : ℤ := 0
  if max < logRecNum then sheet.log_info.reclognum.toInt else logRecNum

/-- A record that is written to the file. -/
def writeRecord (sheet : LogSheet) (index : ℕ) : List Byte × List Byte → List Byte × List Byte
  | (file, str) => eachLines sheet (BitVec.ofNat 8 index) file str

/-- What `analysis_reason` writes to the file in front of its analysis (lines 879–904), and the
    buffer of `ipaddr_ntoa`. `index` is an `int`. -/
def analysis_reason (sheet : LogSheet) (str : List Byte) (fuel : ℕ) :
    Option (List Byte × List Byte) :=
  forIndex (2 ^ 31) (dumpMax sheet) (writeRecord sheet) fuel (logLines sheet, str)

/-- `send_log_data`: the packages of the log that have been sent, without their headers. -/
def send_log_data (sent : List (List Byte)) (data : List Byte) (len : BitVec 16) :
    List (List Byte) :=
  if len = 0 then sent else sent ++ [data.take len.toNat]

/-- A record that is sent. -/
def sendRecord (sheet : LogSheet) (index : ℕ) :
    List (List Byte) × List Byte → List (List Byte) × List Byte
  | (sent, str) =>
    let (txt, str) := eachLines sheet (BitVec.ofNat 8 index) [] str
    (send_log_data sent txt (BitVec.ofNat 16 txt.length), str)

/-- What is sent of a sheet (lines 1057–1086). `index` is an `rt_uint16_t`. -/
def sendSheet (sheet : LogSheet) (str : List Byte) (fuel : ℕ) :
    Option (List (List Byte) × List Byte) :=
  forIndex (2 ^ 16) (dumpMax sheet) (sendRecord sheet) fuel
    (send_log_data [] (logLines sheet) (BitVec.ofNat 16 (logLines sheet).length), str)

/-- `send_log_to_server`, if there is memory. -/
def send_log_to_server (st : NetState) (sheet : LogSheet) (str : List Byte) (fuel : ℕ) :
    Option (List (List Byte) × List Byte) := sendSheet (record_log st sheet) str fuel

/-! ## What they are to do -/

/-- The texts of the records `ks`, which are put together one after the other. -/
def recordTxts (sheet : LogSheet) : List Byte → List Byte → List (List Byte)
  | [], _ => []
  | k :: ks, str =>
    (eachLines sheet k [] str).1 :: recordTxts sheet ks (eachLines sheet k [] str).2

/-- The slots of the records of which the ring has kept any. -/
def LogSheet.kept (sheet : LogSheet) : List Byte :=
  (List.range (min sheet.log_info.reclognum.toNat logRecNum)).map (BitVec.ofNat 8)

/-- The file gets the lines of the sheet and the text of each record once. -/
def WritesRecords (sheet : LogSheet) (str : List Byte) : Prop :=
  ∃ fuel s, analysis_reason sheet str fuel = some s ∧
    s.1 = logLines sheet ++ (recordTxts sheet sheet.kept str).flatten

/-- The server gets the lines of the sheet and the text of each record once. -/
def SendsRecords (st : NetState) (sheet : LogSheet) (str : List Byte) : Prop :=
  ∃ fuel s, send_log_to_server st sheet str fuel = some s ∧
    s.1 = logLines (record_log st sheet) ::
      recordTxts (record_log st sheet) (record_log st sheet).kept str

/-! ## The text of a record -/

/-- What stands in front of a record is left as it is. -/
theorem eachLines_append (sheet : LogSheet) (index : Byte) (txt str : List Byte) :
    eachLines sheet index txt str =
      (txt ++ (eachLines sheet index [] str).1, (eachLines sheet index [] str).2) := by
  have hfold : ∀ (ls : List EachLine) (txt' str : List Byte),
      ls.foldl (addLine sheet index) (txt ++ txt', str) =
        (txt ++ (ls.foldl (addLine sheet index) (txt', str)).1,
          (ls.foldl (addLine sheet index) (txt', str)).2) := by
    intro ls
    induction ls with
    | nil => exact fun _ _ => rfl
    | cons j ls ih =>
      intro txt' str
      rw [List.foldl_cons, List.foldl_cons]
      unfold addLine
      dsimp only
      rw [List.append_assoc]
      exact ih _ _
  have h := hfold EachLine.all [] str
  unfold eachLines
  rwa [List.append_nil] at h

/-- A number that is no slot has no text. -/
theorem eachLines_empty (sheet : LogSheet) {index : Byte} (h : ¬ index.toNat < logRecNum)
    (txt str : List Byte) : eachLines sheet index txt str = (txt, str) := by
  have hline (j : EachLine) (txt str : List Byte) :
      addLine sheet index (txt, str) j = (txt, str) := by
    simp [addLine, get_each_txt, h]
  unfold eachLines
  simp only [EachLine.all, List.foldl_cons, List.foldl_nil, hline]

theorem get_each_txt_ne_nil (sheet : LogSheet) (line : EachLine) {index : Byte}
    (h : index.toNat < logRecNum) (str : List Byte) :
    (get_each_txt sheet line index str).1 ≠ [] := by
  rw [get_each_txt, dif_pos h]
  simp [ascii]

theorem eachLines_ne_nil (sheet : LogSheet) {index : Byte} (h : index.toNat < logRecNum)
    (str : List Byte) : (eachLines sheet index [] str).1 ≠ [] := by
  have hfold : ∀ (ls : List EachLine) (s : List Byte × List Byte), s.1 ≠ [] →
      (ls.foldl (addLine sheet index) s).1 ≠ [] := by
    intro ls
    induction ls with
    | nil => exact fun _ hs => hs
    | cons j ls ih => exact fun s hs => ih _ (List.append_ne_nil_of_left_ne_nil hs _)
  have hfirst : (addLine sheet index ([], str) .logNumber).1 ≠ [] := by
    simpa [addLine] using get_each_txt_ne_nil sheet .logNumber h str
  have h := hfold EachLine.all.tail _ hfirst
  rwa [← List.foldl_cons] at h

theorem length_eachLines_le (sheet : LogSheet) (index : Byte) (str : List Byte) :
    (eachLines sheet index [] str).1.length ≤ 1024 := by
  have hfold : ∀ (ls : List EachLine) (s : List Byte × List Byte),
      (ls.foldl (addLine sheet index) s).1.length ≤ s.1.length + (ls.map EachLine.room).sum := by
    intro ls
    induction ls with
    | nil => exact fun _ => le_rfl
    | cons j ls ih =>
      intro s
      have hline := length_get_each_txt_le sheet j index s.2
      have hrest := ih (addLine sheet index s j)
      have hadd : (addLine sheet index s j).1.length =
          s.1.length + (get_each_txt sheet j index s.2).1.length := List.length_append
      rw [List.foldl_cons, List.map_cons, List.sum_cons]
      omega
  have h := hfold EachLine.all ([], str)
  rw [List.length_nil, Nat.zero_add] at h
  exact h.trans sum_room_le

/-! ## The texts of several records -/

theorem recordTxts_cons (sheet : LogSheet) (k : Byte) (ks str : List Byte) :
    recordTxts sheet (k :: ks) str =
      (eachLines sheet k [] str).1 :: recordTxts sheet ks (eachLines sheet k [] str).2 := rfl

theorem recordTxts_append (sheet : LogSheet) (ks ks' str : List Byte) :
    ∃ str', recordTxts sheet (ks ++ ks') str =
      recordTxts sheet ks str ++ recordTxts sheet ks' str' := by
  induction ks generalizing str with
  | nil => exact ⟨str, rfl⟩
  | cons k ks ih =>
    obtain ⟨str', h⟩ := ih (eachLines sheet k [] str).2
    refine ⟨str', ?_⟩
    rw [List.cons_append, recordTxts_cons, recordTxts_cons, h, List.cons_append]

/-- What is written to the file. -/
theorem foldl_writeRecord (sheet : LogSheet) (is : List ℕ) (file str : List Byte) :
    (is.foldl (fun s i => writeRecord sheet i s) (file, str)).1 =
      file ++ (recordTxts sheet (is.map (BitVec.ofNat 8)) str).flatten := by
  induction is generalizing file str with
  | nil => exact (List.append_nil file).symm
  | cons i is ih =>
    rw [List.foldl_cons, writeRecord, eachLines_append, ih, List.append_assoc, List.map_cons,
      recordTxts_cons, List.flatten_cons]

/-- The texts that are not empty are those of the slots. -/
theorem filter_recordTxts (sheet : LogSheet) (ks str : List Byte) :
    (recordTxts sheet ks str).filter (· ≠ []) =
      recordTxts sheet (ks.filter fun k => k.toNat < logRecNum) str := by
  induction ks generalizing str with
  | nil => rfl
  | cons k ks ih =>
    by_cases hk : k.toNat < logRecNum
    · have hne := eachLines_ne_nil sheet hk str
      rw [List.filter_cons_of_pos (by simpa using hk), recordTxts_cons, recordTxts_cons,
        List.filter_cons_of_pos (by simpa using hne), ih]
    · rw [List.filter_cons_of_neg (by simpa using hk), recordTxts_cons, eachLines_empty sheet hk,
        List.filter_cons_of_neg (by simp), ih]

theorem send_log_data_eq (sent : List (List Byte)) {txt : List Byte} (h : txt.length ≤ 1024) :
    send_log_data sent txt (BitVec.ofNat 16 txt.length) = sent ++ [txt].filter (· ≠ []) := by
  have hlen : (BitVec.ofNat 16 txt.length).toNat = txt.length := by
    rw [BitVec.toNat_ofNat]
    omega
  have hzero : BitVec.ofNat 16 txt.length = 0 ↔ txt = [] := by
    rw [← BitVec.toNat_inj, hlen]
    exact List.length_eq_zero_iff
  unfold send_log_data
  rw [hlen, List.take_length]
  simp only [hzero]
  split_ifs with htxt
  · simp [htxt]
  · simp [htxt]

/-- What is sent. -/
theorem foldl_sendRecord (sheet : LogSheet) (is : List ℕ) (sent : List (List Byte))
    (str : List Byte) :
    (is.foldl (fun s i => sendRecord sheet i s) (sent, str)).1 =
      sent ++ (recordTxts sheet (is.map (BitVec.ofNat 8)) str).filter (· ≠ []) := by
  induction is generalizing sent str with
  | nil => exact (List.append_nil sent).symm
  | cons i is ih =>
    rw [List.foldl_cons, sendRecord]
    dsimp only
    rw [ih, send_log_data_eq sent (length_eachLines_le sheet _ str), List.append_assoc,
      ← List.filter_append, List.singleton_append, List.map_cons, recordTxts_cons]

/-! ## The numbers of the records -/

/-- The slots among the first `n` numbers, as the bytes that `get_each_txt` takes. -/
def slots (n : ℕ) : List Byte :=
  ((List.range n).map (BitVec.ofNat 8)).filter fun k => k.toNat < logRecNum

theorem slots_add (n m : ℕ) :
    slots (n + m) = slots n ++
      ((List.range m).map fun i => BitVec.ofNat 8 (n + i)).filter fun k => k.toNat < logRecNum := by
  rw [slots, List.range_add, List.map_append, List.filter_append, List.map_map]
  rfl

/-- Up to 256 numbers each slot is met at most once. -/
theorem slots_of_le {n : ℕ} (h : n ≤ 256) :
    slots n = (List.range (min n logRecNum)).map (BitVec.ofNat 8) := by
  have hnum : logRecNum = 5 := rfl
  have hsmall : ∀ m ≤ logRecNum, slots m = (List.range m).map (BitVec.ofNat 8) := by
    intro m hm
    refine List.filter_eq_self.2 fun k hk => ?_
    obtain ⟨i, hi, rfl⟩ := List.mem_map.1 hk
    have := List.mem_range.1 hi
    rw [decide_eq_true_iff, BitVec.toNat_ofNat]
    omega
  obtain hle | hgt := Nat.le_total n logRecNum
  · rw [Nat.min_eq_left hle, hsmall n hle]
  · obtain ⟨m, rfl⟩ := Nat.exists_eq_add_of_le hgt
    rw [Nat.min_eq_right hgt, slots_add, hsmall _ le_rfl]
    refine (List.append_right_eq_self).2 (List.filter_eq_nil_iff.2 fun k hk => ?_)
    obtain ⟨i, hi, rfl⟩ := List.mem_map.1 hk
    have := List.mem_range.1 hi
    rw [decide_eq_true_iff, BitVec.toNat_ofNat]
    omega

/-- The number 256 is taken for the slot 0. -/
theorem slots_of_gt {n : ℕ} (h : 256 < n) :
    ∃ ks, slots n = (List.range logRecNum).map (BitVec.ofNat 8) ++ 0 :: ks := by
  obtain ⟨m, rfl⟩ : ∃ m, n = 256 + (1 + m) := ⟨n - 257, by omega⟩
  rw [slots_add, slots_of_le le_rfl]
  rw [List.range_add]
  exact ⟨_, rfl⟩

/-- The number of passes of a loop over all records. -/
theorem dumpMax_eq (sheet : LogSheet) : dumpMax sheet = sheet.log_info.reclognum.toInt := by
  simp [dumpMax, logRecNum]

theorem kept_of_le {sheet : LogSheet} (h : sheet.log_info.reclognum.toNat ≤ 256) :
    slots (dumpMax sheet).toNat = sheet.kept := by
  have hnat : (dumpMax sheet).toNat = sheet.log_info.reclognum.toNat := by
    rw [dumpMax_eq, BitVec.toInt_eq_toNat_cond]
    split_ifs <;> omega
  rw [hnat, slots_of_le h, LogSheet.kept]

/-- The texts of other slots, or of more of them, are others. -/
theorem flatten_recordTxts_iff (sheet : LogSheet) (str : List Byte) :
    (recordTxts sheet (slots (dumpMax sheet).toNat) str).flatten =
        (recordTxts sheet sheet.kept str).flatten ↔
      sheet.log_info.reclognum.toNat ≤ 256 := by
  refine ⟨fun heq => ?_, fun h => by rw [kept_of_le h]⟩
  by_contra hgt
  have hnum : logRecNum = 5 := rfl
  have hkept : sheet.kept = (List.range logRecNum).map (BitVec.ofNat 8) := by
    rw [LogSheet.kept, Nat.min_eq_right (by omega)]
  have hzero (str : List Byte) : (eachLines sheet 0 [] str).1 ≠ [] :=
    eachLines_ne_nil sheet (by decide) str
  obtain hneg | hpos : (dumpMax sheet).toNat = 0 ∨ 256 < (dumpMax sheet).toNat := by
    rw [dumpMax_eq, BitVec.toInt_eq_toNat_cond]
    split_ifs <;> omega
  · -- The number is negative as an `int`, and the loop has no pass.
    rw [hneg, hkept] at heq
    exact hzero str (List.append_eq_nil_iff.1 heq.symm).1
  · obtain ⟨ks, hks⟩ := slots_of_gt hpos
    obtain ⟨str', happ⟩ := recordTxts_append sheet sheet.kept (0 :: ks) str
    rw [hks, ← hkept, happ, List.flatten_append, List.append_right_eq_self] at heq
    exact hzero str' (List.append_eq_nil_iff.1 heq).1

/-! ## Writing and sending -/

theorem flatten_slots (sheet : LogSheet) (n : ℕ) (str : List Byte) :
    (recordTxts sheet ((List.range n).map (BitVec.ofNat 8)) str).flatten =
      (recordTxts sheet (slots n) str).flatten := by
  rw [← List.flatten_filter_ne_nil, filter_recordTxts]
  rfl

theorem writesRecords_iff (sheet : LogSheet) (str : List Byte) :
    WritesRecords sheet str ↔ sheet.log_info.reclognum.toNat ≤ 256 := by
  have hmax : dumpMax sheet < (2 ^ 31 : ℕ) := by
    rw [dumpMax_eq]
    exact BitVec.toInt_lt
  have hfold := foldl_writeRecord sheet (List.range (dumpMax sheet).toNat) (logLines sheet) str
  rw [flatten_slots] at hfold
  refine (forIndex_yields_iff _ hmax _ _).trans ?_
  rw [hfold, List.append_right_inj, flatten_recordTxts_iff]

/-- The lines of the sheet are sent in a package of their own. -/
theorem send_logLines (sheet : LogSheet) :
    send_log_data [] (logLines sheet) (BitVec.ofNat 16 (logLines sheet).length) =
      [logLines sheet] := by
  have hne : logLines sheet ≠ [] := by
    simp [logLines, LogLine.all, get_log_txt, ascii]
  have hlen : (logLines sheet).length ≤ 1024 := length_flatMap_get_log_txt_le sheet
  rw [send_log_data_eq [] hlen]
  simp [hne]

/-- From 65536 records on, sending does not end. -/
theorem sendSheet_loops {sheet : LogSheet} (h : 65536 ≤ sheet.log_info.reclognum.toInt)
    (str : List Byte) (fuel : ℕ) : sendSheet sheet str fuel = none :=
  forIndex_wraps (sendRecord sheet) (by norm_num) (by rw [dumpMax_eq]; exact h) fuel _

theorem sendSheet_iff (sheet : LogSheet) (str : List Byte) :
    (∃ fuel s, sendSheet sheet str fuel = some s ∧
        s.1 = logLines sheet :: recordTxts sheet sheet.kept str) ↔
      sheet.log_info.reclognum.toNat ≤ 256 := by
  obtain hge | hlt := le_or_gt 65536 sheet.log_info.reclognum.toInt
  · refine iff_of_false ?_ ?_
    · rintro ⟨fuel, s, hs, -⟩
      rw [sendSheet_loops hge] at hs
      cases hs
    · rw [BitVec.toInt_eq_toNat_cond] at hge
      split_ifs at hge <;> omega
  have hmax : dumpMax sheet < (2 ^ 16 : ℕ) := by
    rw [dumpMax_eq]
    exact hlt
  have hfold := foldl_sendRecord sheet (List.range (dumpMax sheet).toNat) [logLines sheet] str
  rw [filter_recordTxts, ← slots, List.singleton_append] at hfold
  have htxts : recordTxts sheet (slots (dumpMax sheet).toNat) str =
      recordTxts sheet sheet.kept str ↔ sheet.log_info.reclognum.toNat ≤ 256 :=
    ⟨fun h => (flatten_recordTxts_iff sheet str).1 (congrArg List.flatten h),
      fun h => by rw [kept_of_le h]⟩
  unfold sendSheet
  rw [send_logLines]
  refine (forIndex_yields_iff _ hmax _ _).trans ?_
  rw [hfold, List.cons_inj_right, htxts]

theorem dump_iff (sheet : LogSheet) (st : NetState) (str : List Byte) :
    (WritesRecords sheet str ↔ sheet.log_info.reclognum.toNat ≤ 256) ∧
      (SendsRecords st sheet str ↔ (sheet.log_info.reclognum + 1).toNat ≤ 256) :=
  ⟨writesRecords_iff sheet str, sendSheet_iff (record_log st sheet) str⟩

/-! ## Many records -/

/-- The sheet behind `n` calls of `record_log` that find the same state. -/
def sheetAfter (st : NetState) : ℕ → LogSheet
  | 0 => LogSheet.zero
  | n + 1 => record_log st (sheetAfter st n)

theorem reclognum_sheetAfter (st : NetState) (n : ℕ) :
    (sheetAfter st n).log_info.reclognum = BitVec.ofNat 32 n := by
  induction n with
  | zero => rfl
  | succ n ih =>
    show (sheetAfter st n).log_info.reclognum + 1 = _
    rw [ih, BitVec.ofNat_add]
    rfl

/-- The record in the first slot is written and sent again at the 257th record. -/
theorem dump_257 :
    ¬ WritesRecords (sheetAfter (NetState.withFlags 0x11) 257) (List.replicate 16 0) ∧
      ¬ SendsRecords (NetState.withFlags 0x11) (sheetAfter (NetState.withFlags 0x11) 256)
        (List.replicate 16 0) := by
  have hnum := reclognum_sheetAfter (NetState.withFlags 0x11) 257
  constructor
  · rw [writesRecords_iff, hnum]
    decide
  · show ¬ ∃ fuel s, sendSheet (sheetAfter (NetState.withFlags 0x11) 257) _ fuel = some s ∧ _
    intro h
    have hle := (sendSheet_iff _ _).1 h
    rw [hnum] at hle
    exact absurd hle (by decide)

end Abox.Log
