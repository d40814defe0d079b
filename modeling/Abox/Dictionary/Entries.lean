import Abox.Dictionary.Info

/-!
# The entries of a reply

What `getDicInfo` and `del_smd1_func` write, in terms of the dictionary as lists of
fields: the entries of all addresses of all items, one behind the other.

* `getDicInfo_eq_ok_iff`: when the entries of an item are written, and what they are.
* `del_smd1_func_eq_ok_iff`: the same for a request.
-/

namespace Abox.Dictionary

open Server Config Update

/-! ## What is written -/

/-- `send` with `body` at its front, and zeros behind it. -/
def filled (body : List Byte) : List Byte := body ++ List.replicate (buffLen - body.length) 0

/-- The reply when `body` has been written and `n` entries counted. -/
def replyOf (body : List Byte) (n : ℕ) : Reply :=
  ⟨filled body, BitVec.ofNat 16 body.length, BitVec.ofNat 16 n⟩

theorem length_filled {body : List Byte} (h : body.length ≤ buffLen) :
    (filled body).length = buffLen := by
  unfold filled
  rw [List.length_append, List.length_replicate]
  omega

/-- As many bytes are copied over others. -/
theorem memcpy_append {a b bs : List Byte} (c : List Byte) (h : bs.length = b.length) :
    memcpy (a ++ (b ++ c)) a.length bs = a ++ (bs ++ c) := by
  unfold memcpy
  rw [List.take_left, h, ← List.append_assoc a b c, ← List.length_append, List.drop_left,
    List.append_assoc]

theorem memcpy_filled {body bs : List Byte} (h : body.length + bs.length ≤ buffLen) :
    memcpy (filled body) body.length bs = filled (body ++ bs) := by
  unfold filled
  rw [show buffLen - body.length = bs.length + (buffLen - (body ++ bs).length) by
    rw [List.length_append]; omega, List.replicate_add, memcpy_append _ (by simp),
    List.append_assoc]

theorem toNat_length {body : List Byte} (h : body.length ≤ buffLen) :
    (BitVec.ofNat 16 body.length).toNat = body.length := by
  have hmax : buffLen = 1024 := rfl
  rw [BitVec.toNat_ofNat, Nat.mod_eq_of_lt]
  omega

/-- `send` and `sendLen` when `body` has been written. -/
def written (body : List Byte) : List Byte × BitVec 16 :=
  (filled body, BitVec.ofNat 16 body.length)

theorem ok_eq_ok_iff {α : Type} {a b : α} : (Except.ok a : Except Fault α) = .ok b ↔ b = a := by
  rw [Except.ok.injEq, eq_comm]

/-- `len` after `bs` has been copied. -/
theorem add_length (body : List Byte) {bs : List Byte} {k : ℕ} (h : bs.length = k) :
    BitVec.ofNat 16 body.length + BitVec.ofNat 16 k = BitVec.ofNat 16 (body ++ bs).length := by
  rw [List.length_append, h, BitVec.ofNat_add]

theorem copyTo_eq_ok_iff {body bs send : List Byte} (h : body.length ≤ buffLen) :
    copyTo (filled body) (BitVec.ofNat 16 body.length) bs = .ok send ↔
      (body ++ bs).length ≤ buffLen ∧ send = filled (body ++ bs) := by
  unfold copyTo
  rw [toNat_length h, length_filled h, List.length_append]
  split_ifs with hfit
  · rw [memcpy_filled hfit, and_iff_right hfit, ok_eq_ok_iff]
  · exact iff_of_false nofun fun h => hfit h.1

theorem putData_eq_ok_iff {body data : List Byte} {p : List Byte × BitVec 16}
    (h : body.length ≤ buffLen) :
    putData data (filled body) (BitVec.ofNat 16 body.length) = .ok p ↔
      (body ++ (Layout.half.encode (BitVec.ofNat 16 data.length) ++ data)).length ≤ buffLen ∧
        p = written (body ++ (Layout.half.encode (BitVec.ofNat 16 data.length) ++ data)) := by
  rw [← List.append_assoc]
  set head := body ++ Layout.half.encode (BitVec.ofNat 16 data.length)
  have hlen : BitVec.ofNat 16 body.length + 2 = BitVec.ofNat 16 head.length :=
    add_length body (Layout.half.length_encode (BitVec.ofNat 16 data.length))
  unfold putData
  simp only [bind_eq_ok_iff, copyTo_eq_ok_iff h, hlen, add_length head rfl]
  constructor
  · rintro ⟨_, ⟨hle, rfl⟩, send, hsend, heq⟩
    obtain ⟨hfit, rfl⟩ := (copyTo_eq_ok_iff hle).1 hsend
    exact ⟨hfit, (Except.ok.inj heq).symm⟩
  · rintro ⟨hfit, rfl⟩
    have hle : head.length ≤ buffLen := by
      rw [List.length_append] at hfit
      omega
    exact ⟨_, ⟨hle, rfl⟩, _, (copyTo_eq_ok_iff hle).2 ⟨hfit, rfl⟩, rfl⟩

/-! ## Entries -/

/-- `getDataFunc` is called for `addr` in an item that starts in section `s` only if it
    has been set. -/
def Called (s : ℕ) (addr : BitVec 32) : Prop := Known s ∨ addr ≠ 0

/-- The data that a pass puts behind the address. -/
theorem getEntry_of_called {d : DictionaryInfo} {s : ℕ} {addr : BitVec 32}
    (hcalled : Called s addr) (hstart : Known s → s * 2 ^ 16 ≤ addr.toNat) (r : Reply) :
    getEntry (getSection d s).1 (getSection d s).2 addr r = (do
      let send ← copyTo r.send r.sendLen (Layout.word.encode addr)
      let (send, len) ← putData (fieldData d s addr) send (r.sendLen + 4)
      return ⟨send, len, r.totalCount + 1⟩) := by
  unfold getEntry
  rw [getSection_fst]
  by_cases hend : sectionEnd s < addr
  · simp only [if_pos hend, fieldData]
  · by_cases hs : Known s
    · obtain ⟨f, hf, hdata⟩ := getSection_snd_of_known d hs (hstart hs) hend
      simp only [if_neg hend, hf, hdata]
    · refine absurd ?_ hend
      rw [(getSection_snd_of_not (d := d) hs).2, BitVec.lt_def]
      have hne := hcalled.resolve_left hs
      exact Nat.pos_of_ne_zero fun h0 => hne (BitVec.eq_of_toNat_eq h0)

theorem getEntry_of_not_called {d : DictionaryInfo} {s : ℕ} {addr : BitVec 32}
    (hcalled : ¬ Called s addr) (r r' : Reply) :
    getEntry (getSection d s).1 (getSection d s).2 addr r ≠ .ok r' := by
  unfold Called at hcalled
  push Not at hcalled
  obtain ⟨hs, rfl⟩ := hcalled
  obtain ⟨hnone, hend⟩ := getSection_snd_of_not (d := d) hs
  unfold getEntry
  rw [getSection_fst, hend, hnone]
  cases copyTo r.send r.sendLen (Layout.word.encode 0) with
  | error e => exact nofun
  | ok send => exact nofun

/-- A pass puts one entry behind what has been written, if there is room for it. -/
theorem getEntry_eq_ok_iff {d : DictionaryInfo} {s : ℕ} {addr : BitVec 32} {body : List Byte}
    (n : ℕ) {r : Reply} (hbody : body.length ≤ buffLen)
    (hstart : Known s → s * 2 ^ 16 ≤ addr.toNat) :
    getEntry (getSection d s).1 (getSection d s).2 addr (replyOf body n) = .ok r ↔
      Called s addr ∧ (body ++ entry d s addr).length ≤ buffLen ∧
        r = replyOf (body ++ entry d s addr) (n + 1) := by
  by_cases hcalled : Called s addr
  · rw [getEntry_of_called hcalled hstart, and_iff_right hcalled]
    have hentry : body ++ entry d s addr = body ++ Layout.word.encode addr ++
        (Layout.half.encode (BitVec.ofNat 16 (fieldData d s addr).length) ++
          fieldData d s addr) := by
      unfold entry
      rw [List.append_assoc, List.append_assoc]
    rw [hentry]
    set head := body ++ Layout.word.encode addr
    have hlen : BitVec.ofNat 16 body.length + 4 = BitVec.ofNat 16 head.length :=
      add_length body (Layout.word.length_encode addr)
    simp only [replyOf, bind_eq_ok_iff, copyTo_eq_ok_iff hbody, hlen, BitVec.ofNat_add]
    constructor
    · rintro ⟨_, ⟨hle, rfl⟩, p, hp, heq⟩
      obtain ⟨hfit, rfl⟩ := (putData_eq_ok_iff hle).1 hp
      exact ⟨hfit, (Except.ok.inj heq).symm⟩
    · rintro ⟨hfit, rfl⟩
      have hle : head.length ≤ buffLen := by
        rw [List.length_append] at hfit
        omega
      exact ⟨_, ⟨hle, rfl⟩, _, (putData_eq_ok_iff hle).2 ⟨hfit, rfl⟩, rfl⟩
  · exact iff_of_false (getEntry_of_not_called hcalled _ _) fun h => hcalled h.1

/-! ## Items -/

/-- The first `n` values of a counter that starts at `start` and is advanced by `step`. -/
def counted {w : ℕ} (start : BitVec w) (step n : ℕ) : List (BitVec w) :=
  (List.range n).map fun k => start + BitVec.ofNat w (step * k)

theorem counted_succ {w : ℕ} (start : BitVec w) (step n : ℕ) :
    counted start step (n + 1) = start :: counted (start + BitVec.ofNat w step) step n := by
  unfold counted
  rw [List.range_succ_eq_map, List.map_cons, List.map_map]
  congr 1
  · exact BitVec.add_zero _
  · refine List.map_congr_left fun k _ => ?_
    show start + BitVec.ofNat w (step * (k + 1)) = _
    rw [Nat.mul_succ, Nat.add_comm, BitVec.ofNat_add, ← BitVec.add_assoc]

/-- The addresses that an item asks for. -/
def CycleInfo.addrs (c : CycleInfo) : List (BitVec 32) := counted c.startAddr 1 c.len.toNat

/-- The entries for an item. -/
def CycleInfo.entries (d : DictionaryInfo) (c : CycleInfo) : List Byte :=
  c.addrs.flatMap (entry d c.sect)

/-- The loop puts the entries one behind the other. -/
theorem getEntries_eq_ok_iff {d : DictionaryInfo} {s m : ℕ} {startAddr : BitVec 32}
    {body : List Byte} (n : ℕ) {r : Reply} (hbody : body.length ≤ buffLen)
    (hstart : Known s → ∀ addr ∈ counted startAddr 1 m, s * 2 ^ 16 ≤ addr.toNat) :
    getEntries (getSection d s).1 (getSection d s).2 m startAddr (replyOf body n) = .ok r ↔
      (∀ addr ∈ counted startAddr 1 m, Called s addr) ∧
        (body ++ (counted startAddr 1 m).flatMap (entry d s)).length ≤ buffLen ∧
        r = replyOf (body ++ (counted startAddr 1 m).flatMap (entry d s)) (n + m) := by
  induction m generalizing startAddr body n with
  | zero =>
    have hnil : counted startAddr 1 0 = [] := rfl
    rw [hnil, List.flatMap_nil, List.append_nil, Nat.add_zero, and_iff_right nofun,
      and_iff_right hbody]
    exact ok_eq_ok_iff
  | succ m ih =>
    rw [counted_succ] at hstart ⊢
    simp only [List.forall_mem_cons] at hstart
    rw [List.flatMap_cons, List.forall_mem_cons, ← List.append_assoc, ← Nat.add_assoc,
      Nat.add_right_comm]
    have htail : Known s → ∀ addr ∈ counted (startAddr + 1) 1 m, s * 2 ^ 16 ≤ addr.toNat :=
      fun hs => (hstart hs).2
    unfold getEntries
    simp only [bind_eq_ok_iff, getEntry_eq_ok_iff n hbody fun hs => (hstart hs).1]
    constructor
    · rintro ⟨_, ⟨hcalled, hle, rfl⟩, h⟩
      obtain ⟨hrest, hfit, rfl⟩ := (ih (n + 1) hle htail).1 h
      exact ⟨⟨hcalled, hrest⟩, hfit, rfl⟩
    · rintro ⟨⟨hcalled, hrest⟩, hfit, rfl⟩
      have hle : (body ++ entry d s startAddr).length ≤ buffLen := by
        rw [List.length_append] at hfit
        omega
      exact ⟨_, ⟨hcalled, hle, rfl⟩, (ih (n + 1) hle htail).2 ⟨hrest, hfit, rfl⟩⟩

/-- The addresses of an item in a section are not before the section. -/
theorem CycleInfo.le_of_mem_addrs {c : CycleInfo} (hs : Known c.sect) {addr : BitVec 32}
    (h : addr ∈ c.addrs) : c.sect * 2 ^ 16 ≤ addr.toNat := by
  obtain ⟨k, hk, rfl⟩ := List.mem_map.1 h
  have hlt := List.mem_range.1 hk
  have hlen := c.len.isLt
  have hsect : c.sect = c.startAddr.toNat / 2 ^ 16 := by
    unfold CycleInfo.sect
    rw [BitVec.toNat_ushiftRight, Nat.shiftRight_eq_div_pow]
  have h5 := hs.2
  rw [hsect] at h5 ⊢
  rw [BitVec.toNat_add, BitVec.toNat_ofNat]
  omega

/-- Every call of `getDataFunc` that the item leads to finds it set. -/
def CycleInfo.Callable (c : CycleInfo) : Prop := ∀ addr ∈ c.addrs, Called c.sect addr

theorem getDicInfo_eq_ok_iff {d : DictionaryInfo} {c : CycleInfo} {body : List Byte} (n : ℕ)
    {r : Reply} (hbody : body.length ≤ buffLen) :
    getDicInfo d c (replyOf body n) = .ok r ↔
      c.Callable ∧ (body ++ c.entries d).length ≤ buffLen ∧
        r = replyOf (body ++ c.entries d) (n + c.len.toNat) := by
  have hlen : (replyOf body n).sendLen.toNat = body.length := toNat_length hbody
  unfold getDicInfo
  rw [hlen, if_neg (Nat.not_lt.2 hbody)]
  exact getEntries_eq_ok_iff n hbody fun hs addr haddr => c.le_of_mem_addrs hs haddr

/-! ## Requests -/

/-- The item at `dataLen`. -/
def itemAt (rev : List Byte) (dataLen : BitVec 16) : CycleInfo :=
  ⟨u32At rev dataLen.toNat, u16At rev (dataLen + 4).toNat⟩

/-- Its reads. -/
def itemReads (dataLen : BitVec 16) : List (ℕ × ℕ) :=
  [(dataLen.toNat, 4), ((dataLen + 4).toNat, 2)]

/-- The entries for the items at the places `offs`, and their number. -/
def entriesAt (d : DictionaryInfo) (rev : List Byte) (offs : List (BitVec 16)) : List Byte :=
  offs.flatMap fun off => (itemAt rev off).entries d

def countAt (rev : List Byte) (offs : List (BitVec 16)) : ℕ :=
  (offs.map fun off => (itemAt rev off).len.toNat).sum

theorem lookItem_eq_ok_iff {d : DictionaryInfo} {rev body : List Byte} {dataLen : BitVec 16}
    {reads : List (ℕ × ℕ)} (n : ℕ) {l : Look} (hbody : body.length ≤ buffLen) :
    lookItem d rev ⟨dataLen, reads, replyOf body n⟩ = .ok l ↔
      (itemAt rev dataLen).Callable ∧
        (body ++ (itemAt rev dataLen).entries d).length ≤ buffLen ∧
        l = ⟨dataLen + BitVec.ofNat 16 6, reads ++ itemReads dataLen,
          replyOf (body ++ (itemAt rev dataLen).entries d)
            (n + (itemAt rev dataLen).len.toNat)⟩ := by
  have hnext : dataLen + 4 + 2 = dataLen + BitVec.ofNat 16 6 := BitVec.add_assoc _ _ _
  unfold lookItem
  simp only [bind_eq_ok_iff, hnext]
  constructor
  · rintro ⟨reply, hreply, heq⟩
    obtain ⟨hcall, hfit, rfl⟩ := (getDicInfo_eq_ok_iff n hbody).1 hreply
    exact ⟨hcall, hfit, (Except.ok.inj heq).symm⟩
  · rintro ⟨hcall, hfit, rfl⟩
    exact ⟨_, (getDicInfo_eq_ok_iff n hbody).2 ⟨hcall, hfit, rfl⟩, rfl⟩

/-- The items are looked up one after the other. -/
theorem lookItems_eq_ok_iff {d : DictionaryInfo} {rev body : List Byte} {m : ℕ}
    {dataLen : BitVec 16} {reads : List (ℕ × ℕ)} (n : ℕ) {l : Look}
    (hbody : body.length ≤ buffLen) :
    lookItems d rev m ⟨dataLen, reads, replyOf body n⟩ = .ok l ↔
      (∀ off ∈ counted dataLen 6 m, (itemAt rev off).Callable) ∧
        (body ++ entriesAt d rev (counted dataLen 6 m)).length ≤ buffLen ∧
        l = ⟨dataLen + BitVec.ofNat 16 (6 * m), reads ++ (counted dataLen 6 m).flatMap itemReads,
          replyOf (body ++ entriesAt d rev (counted dataLen 6 m))
            (n + countAt rev (counted dataLen 6 m))⟩ := by
  induction m generalizing dataLen body reads n with
  | zero =>
    have hnil : counted dataLen 6 0 = [] := rfl
    have hzero : dataLen + BitVec.ofNat 16 (6 * 0) = dataLen := BitVec.add_zero _
    rw [hnil, hzero, entriesAt, countAt, List.flatMap_nil, List.append_nil, and_iff_right nofun,
      and_iff_right hbody, List.flatMap_nil, List.append_nil, List.map_nil, List.sum_nil]
    exact ok_eq_ok_iff
  | succ m ih =>
    rw [counted_succ, List.forall_mem_cons, List.flatMap_cons, entriesAt, countAt,
      List.flatMap_cons, List.map_cons, List.sum_cons, ← List.append_assoc, ← List.append_assoc,
      ← Nat.add_assoc, Nat.mul_succ, Nat.add_comm (6 * m), BitVec.ofNat_add, ← BitVec.add_assoc]
    unfold lookItems
    simp only [bind_eq_ok_iff, lookItem_eq_ok_iff n hbody]
    constructor
    · rintro ⟨_, ⟨hcall, hle, rfl⟩, h⟩
      obtain ⟨hrest, hfit, rfl⟩ := (ih _ hle).1 h
      exact ⟨⟨hcall, hrest⟩, hfit, rfl⟩
    · rintro ⟨⟨hcall, hrest⟩, hfit, rfl⟩
      have hle : (body ++ (itemAt rev dataLen).entries d).length ≤ buffLen := by
        rw [List.length_append] at hfit
        omega
      exact ⟨_, ⟨hcall, hle, rfl⟩, (ih _ hle).2 ⟨hrest, hfit, rfl⟩⟩

/-- The places of the items of a request. -/
def itemOffsets (rev : List Byte) : List (BitVec 16) := counted 12 6 (requestCount rev).toNat

/-- The items of a request. -/
def items (rev : List Byte) : List CycleInfo := (itemOffsets rev).map (itemAt rev)

/-- The entries for a request. -/
def requestEntries (d : DictionaryInfo) (rev : List Byte) : List Byte :=
  (items rev).flatMap (CycleInfo.entries d)

/-- The number of addresses in a request. -/
def requestTotal (rev : List Byte) : ℕ := ((items rev).map fun c => c.len.toNat).sum

/-- The body of the reply. -/
def replyBody (d : DictionaryInfo) (rev : List Byte) : List Byte :=
  Layout.half.encode tcmd121ScmdLookInfo ++
    Layout.half.encode (BitVec.ofNat 16 (requestTotal rev)) ++ requestEntries d rev

/-- Its header. -/
def replyCmd (appId : BitVec 32) (d : DictionaryInfo) (rev : List Byte) : StPackCmd :=
  ⟨csoh, tcmd122, appId, BitVec.ofNat 16 (replyBody d rev).length⟩

/-- `send` before the checksum is written. -/
def replySend (appId : BitVec 32) (d : DictionaryInfo) (rev : List Byte) : List Byte :=
  packcmdBytes (replyCmd appId d rev) ++ replyBody d rev ++
    List.replicate (buffLen - (12 + (requestEntries d rev).length)) 0

theorem length_replyBody (d : DictionaryInfo) (rev : List Byte) :
    (replyBody d rev).length = 4 + (requestEntries d rev).length := by
  unfold replyBody
  rw [List.length_append, List.length_append]
  rfl

theorem length_replySend (appId : BitVec 32) {d : DictionaryInfo} {rev : List Byte}
    (h : 12 + (requestEntries d rev).length ≤ buffLen) :
    (replySend appId d rev).length = buffLen := by
  unfold replySend
  rw [List.length_append, List.length_append, length_packcmdBytes, length_replyBody,
    List.length_replicate]
  show 8 + _ + _ = _
  omega

theorem entriesAt_itemOffsets (d : DictionaryInfo) (rev : List Byte) :
    entriesAt d rev (itemOffsets rev) = requestEntries d rev := by
  unfold entriesAt requestEntries items
  rw [List.flatMap_map]

theorem countAt_itemOffsets (rev : List Byte) :
    countAt rev (itemOffsets rev) = requestTotal rev := by
  unfold countAt requestTotal items
  rw [List.map_map]
  rfl

/-- The header, the scmd and the count are copied over the 12 zeros at the front. -/
theorem replyHead_eq (appId : BitVec 32) (d : DictionaryInfo) (rev : List Byte) :
    memcpy (memcpy (memcpy (filled (List.replicate 12 0 ++ requestEntries d rev)) 0
      (packcmdBytes (replyCmd appId d rev))) sizeofStPackCmd
      (Layout.half.encode tcmd121ScmdLookInfo)) (sizeofStPackCmd + 2)
      (Layout.half.encode (BitVec.ofNat 16 (requestTotal rev))) = replySend appId d rev := by
  unfold filled replySend replyBody
  rw [List.length_append, List.length_replicate, List.append_assoc]
  generalize List.replicate (buffLen - (12 + (requestEntries d rev).length)) (0 : Byte) = pad
  have hzero : List.replicate 12 (0 : Byte) ++ (requestEntries d rev ++ pad) =
      [] ++ (List.replicate 8 0 ++ (List.replicate 2 0 ++ (List.replicate 2 0 ++
        (requestEntries d rev ++ pad)))) := rfl
  have hscmd : (Layout.half.encode tcmd121ScmdLookInfo).length = 2 := rfl
  have hoff : sizeofStPackCmd + 2 =
      (packcmdBytes (replyCmd appId d rev) ++ Layout.half.encode tcmd121ScmdLookInfo).length := rfl
  rw [hzero, show (0 : ℕ) = ([] : List Byte).length from rfl,
    memcpy_append _ (length_packcmdBytes _), List.nil_append,
    ← length_packcmdBytes (replyCmd appId d rev), memcpy_append _ hscmd,
    length_packcmdBytes (replyCmd appId d rev), hoff, ← List.append_assoc,
    memcpy_append _ (Layout.half.length_encode _)]
  simp only [List.append_assoc]

/-- The reply is sent if there is room for the checksum. -/
theorem sendReply_eq_ok_iff (appId : BitVec 32) (d : DictionaryInfo) (rev : List Byte)
    {f : List Byte × ℕ} (h : 12 + (requestEntries d rev).length ≤ buffLen) :
    sendReply appId (replyOf (List.replicate 12 0 ++ requestEntries d rev) (requestTotal rev)) =
        .ok f ↔
      14 + (requestEntries d rev).length ≤ buffLen ∧
        f = Abox_send_pack (replySend appId d rev)
          (BitVec.ofNat 16 (sizeofStPackCmd + (replyBody d rev).length)) := by
  have hlen : (List.replicate 12 (0 : Byte) ++ requestEntries d rev).length =
      sizeofStPackCmd + (replyBody d rev).length := by
    rw [length_replyBody, List.length_append, List.length_replicate]
    show _ = 8 + _
    omega
  have hcmd : (⟨csoh, tcmd122, appId,
      BitVec.ofNat 16 (List.replicate 12 (0 : Byte) ++ requestEntries d rev).length -
        BitVec.ofNat 16 sizeofStPackCmd⟩ : StPackCmd) = replyCmd appId d rev := by
    rw [hlen, BitVec.ofNat_add, BitVec.add_comm, BitVec.add_sub_cancel]
    rfl
  have hsend := length_replySend appId h
  have hnat : (BitVec.ofNat 16
      (List.replicate 12 (0 : Byte) ++ requestEntries d rev).length).toNat =
      (List.replicate 12 (0 : Byte) ++ requestEntries d rev).length :=
    toNat_length (by rw [List.length_append, List.length_replicate]; exact h)
  unfold sendReply replyOf
  simp only [hcmd, replyHead_eq, hsend, hnat]
  rw [hlen, length_replyBody]
  have hsize : sizeofStPackCmd = 8 := rfl
  split_ifs with hroom
  · rw [ok_eq_ok_iff, and_iff_right (by omega)]
  · exact iff_of_false nofun fun h => hroom (by omega)

theorem del_smd1_func_eq_ok_iff (appId : BitVec 32) (d : DictionaryInfo) (rev : List Byte)
    {f : List Byte × ℕ} {reads : List (ℕ × ℕ)} :
    del_smd1_func appId d rev = .ok (f, reads) ↔
      (∀ c ∈ items rev, c.Callable) ∧ 14 + (requestEntries d rev).length ≤ buffLen ∧
        f = Abox_send_pack (replySend appId d rev)
          (BitVec.ofNat 16 (sizeofStPackCmd + (replyBody d rev).length)) ∧
        reads = (10, 2) :: (itemOffsets rev).flatMap itemReads := by
  have hstart : (⟨List.replicate buffLen 0, 12, 0⟩ : Reply) = replyOf (List.replicate 12 0) 0 := by
    unfold replyOf filled
    rw [List.length_replicate, ← List.replicate_add]
    rfl
  have hitems : (∀ off ∈ itemOffsets rev, (itemAt rev off).Callable) ↔
      ∀ c ∈ items rev, c.Callable := by
    unfold items
    rw [List.forall_mem_map]
  have hbody : (List.replicate 12 (0 : Byte) ++ requestEntries d rev).length =
      12 + (requestEntries d rev).length := by
    rw [List.length_append, List.length_replicate]
  have hlook : ∀ l, lookItems d rev (requestCount rev).toNat
      ⟨12, [(10, 2)], replyOf (List.replicate 12 0) 0⟩ = .ok l ↔ _ :=
    fun l => lookItems_eq_ok_iff 0 (by decide)
  have hoffs : counted 12 6 (requestCount rev).toNat = itemOffsets rev := rfl
  simp only [hoffs, hitems, entriesAt_itemOffsets, countAt_itemOffsets, hbody, Nat.zero_add,
    List.singleton_append, ← hstart] at hlook
  unfold del_smd1_func
  simp only [bind_eq_ok_iff]
  constructor
  · rintro ⟨l, hl, sent, hsent, heq⟩
    obtain ⟨hcall, hfit, rfl⟩ := (hlook l).1 hl
    obtain ⟨hroom, rfl⟩ := (sendReply_eq_ok_iff appId d rev hfit).1 hsent
    obtain ⟨rfl, rfl⟩ := Prod.mk.inj (Except.ok.inj heq)
    exact ⟨hcall, hroom, rfl, rfl⟩
  · rintro ⟨hcall, hroom, rfl, rfl⟩
    have hfit : 12 + (requestEntries d rev).length ≤ buffLen := by omega
    exact ⟨_, (hlook _).2 ⟨hcall, hfit, rfl⟩, _,
      (sendReply_eq_ok_iff appId d rev hfit).2 ⟨hroom, rfl⟩, rfl⟩

end Abox.Dictionary
