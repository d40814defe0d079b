import Abox.Dictionary.Bounds

/-!
# The content of a dictionary reply

What a server that walks the body of the reply finds in it. The decoder below is ours;
the format is that of `TCMD_122_1_INFO` (`dictionary.h` lines 141–145).

* `dictionary_reply`: it finds the stored fields of all addresses that were asked for,
  in this order, and reaches the end of the body with the last one.
-/

namespace Abox.Dictionary

open Server Update

/-! ## Decoding a body -/

/-- An entry from the front of `bs`, and the rest. -/
def decodeEntry (bs : List Byte) : Option ((BitVec 32 × List Byte) × List Byte) :=
  let addr := Layout.word.decode (bs.take 4)
  let len := (Layout.half.decode ((bs.drop 4).take 2)).toNat
  let rest := (bs.drop 4).drop 2
  if 6 ≤ bs.length ∧ len ≤ rest.length then some ((addr, rest.take len), rest.drop len) else none

/-- `n` entries, and the rest. -/
def decodeEntries : ℕ → List Byte → Option (List (BitVec 32 × List Byte) × List Byte)
  | 0, bs => some ([], bs)
  | n + 1, bs => do
    let (e, bs) ← decodeEntry bs
    let (es, bs) ← decodeEntries n bs
    return (e :: es, bs)

/-- The scmd, the count and as many entries; `none` if the entries do not end with the
    body. -/
def decodeBody (bs : List Byte) : Option (BitVec 16 × BitVec 16 × List (BitVec 32 × List Byte)) :=
  let scmd := Layout.half.decode (bs.take 2)
  let count := Layout.half.decode ((bs.drop 2).take 2)
  match decodeEntries count.toNat ((bs.drop 2).drop 2) with
  | some (es, []) => some (scmd, count, es)
  | _ => none

/-- A value that is encoded at the front. -/
theorem decode_take {α : Type} (l : Layout α) (a : α) (rest : List Byte) {n : ℕ} (h : l.size = n) :
    l.decode ((l.encode a ++ rest).take n) = a ∧ (l.encode a ++ rest).drop n = rest := by
  subst h
  rw [← l.length_encode a, List.take_left, List.drop_left]
  exact ⟨l.decode_encode a, rfl⟩

theorem decodeEntry_entry (d : DictionaryInfo) (s : ℕ) (addr : BitVec 32) (rest : List Byte) :
    decodeEntry (entry d s addr ++ rest) = some ((addr, fieldData d s addr), rest) := by
  have hsize : 6 ≤ (entry d s addr ++ rest).length := by
    rw [List.length_append, length_entry]
    omega
  have hwidth : (BitVec.ofNat 16 (fieldData d s addr).length).toNat =
      (fieldData d s addr).length := by
    have hle := fieldWidth_le s addr
    rw [length_fieldData, BitVec.toNat_ofNat, Nat.mod_eq_of_lt]
    omega
  obtain ⟨haddr, hdrop⟩ := decode_take Layout.word addr
    (Layout.half.encode (BitVec.ofNat 16 (fieldData d s addr).length) ++
      (fieldData d s addr ++ rest))
    (show Layout.word.size = 4 from rfl)
  obtain ⟨hlen, hdata⟩ := decode_take Layout.half
    (BitVec.ofNat 16 (fieldData d s addr).length) (fieldData d s addr ++ rest)
    (show Layout.half.size = 2 from rfl)
  have happ : entry d s addr ++ rest = Layout.word.encode addr ++
      (Layout.half.encode (BitVec.ofNat 16 (fieldData d s addr).length) ++
        (fieldData d s addr ++ rest)) := by
    rw [entry, List.append_assoc, List.append_assoc]
  simp only [decodeEntry, hsize, true_and]
  rw [happ, haddr, hdrop, hlen, hdata, hwidth, List.take_left, List.drop_left, List.length_append,
    if_pos (Nat.le_add_right _ _)]

/-! ## The addresses of a request -/

/-- The addresses that a request asks for, each with the section of its item. -/
def asked (rev : List Byte) : List (ℕ × BitVec 32) :=
  (items rev).flatMap fun c => c.addrs.map fun addr => (c.sect, addr)

/-- The addresses with their data. -/
def answers (d : DictionaryInfo) (rev : List Byte) : List (BitVec 32 × List Byte) :=
  (asked rev).map fun p => (p.2, fieldData d p.1 p.2)

theorem requestEntries_eq (d : DictionaryInfo) (rev : List Byte) :
    requestEntries d rev = (asked rev).flatMap fun p => entry d p.1 p.2 := by
  unfold requestEntries asked CycleInfo.entries
  rw [List.flatMap_assoc]
  simp only [List.flatMap_map]

theorem length_asked (rev : List Byte) : (asked rev).length = requestTotal rev := by
  unfold asked requestTotal
  rw [List.length_flatMap]
  simp only [List.length_map, CycleInfo.addrs, counted, List.length_range]

theorem decodeEntries_flatMap (d : DictionaryInfo) (l : List (ℕ × BitVec 32)) (rest : List Byte) :
    decodeEntries l.length ((l.flatMap fun p => entry d p.1 p.2) ++ rest) =
      some (l.map fun p => (p.2, fieldData d p.1 p.2), rest) := by
  induction l with
  | nil => rfl
  | cons p l ih =>
    rw [List.length_cons, List.flatMap_cons, List.append_assoc, List.map_cons]
    unfold decodeEntries
    rw [decodeEntry_entry]
    simp only [Option.bind_eq_bind, Option.bind_some, ih]
    rfl

/-- Every address takes at least 6 bytes. -/
theorem requestTotal_le (d : DictionaryInfo) (rev : List Byte) :
    6 * requestTotal rev ≤ (requestEntries d rev).length := by
  rw [requestEntries_eq, ← length_asked]
  induction asked rev with
  | nil => exact Nat.zero_le _
  | cons p l ih =>
    rw [List.flatMap_cons, List.length_append, List.length_cons, length_entry]
    omega

/-! ## The reply -/

/-- The body answers the request: it decodes to the addresses in their order, with the
    field of each up to the end of the section, and nothing past it. -/
structure Answers (d : DictionaryInfo) (rev body : List Byte) : Prop where
  decoded : ∃ count, decodeBody body = some (tcmd121ScmdLookInfo, count, answers d rev) ∧
    count.toNat = requestTotal rev
  stored : ∀ p ∈ asked rev, ¬ sectionEnd p.1 < p.2 →
    (sectionFields d p.1)[p.2.toNat - p.1 * 2 ^ 16]? = some (fieldData d p.1 p.2)
  past : ∀ p ∈ asked rev, sectionEnd p.1 < p.2 → fieldData d p.1 p.2 = []

theorem answers_replyBody {d : DictionaryInfo} {rev : List Byte}
    (hsect : ∀ c ∈ items rev, Known c.sect) (hfit : 14 + (requestEntries d rev).length ≤ buffLen) :
    Answers d rev (replyBody d rev) := by
  have hmax : buffLen = 1024 := rfl
  have hle := requestTotal_le d rev
  have hcount : (BitVec.ofNat 16 (requestTotal rev)).toNat = requestTotal rev := by
    rw [BitVec.toNat_ofNat, Nat.mod_eq_of_lt]
    omega
  refine ⟨⟨BitVec.ofNat 16 (requestTotal rev), ?_, hcount⟩, ?_, fun p _ hend => if_pos hend⟩
  · obtain ⟨hscmd, hdrop⟩ := decode_take Layout.half tcmd121ScmdLookInfo
      (Layout.half.encode (BitVec.ofNat 16 (requestTotal rev)) ++ requestEntries d rev)
      (show Layout.half.size = 2 from rfl)
    obtain ⟨htotal, hentries⟩ := decode_take Layout.half (BitVec.ofNat 16 (requestTotal rev))
      (requestEntries d rev) (show Layout.half.size = 2 from rfl)
    simp only [decodeBody, replyBody]
    rw [List.append_assoc, hscmd, hdrop, htotal, hentries, hcount, ← length_asked,
      requestEntries_eq, ← List.append_nil ((asked rev).flatMap _), decodeEntries_flatMap]
    rfl
  · intro p hp hend
    obtain ⟨c, hc, hp⟩ := List.mem_flatMap.1 hp
    obtain ⟨addr, haddr, rfl⟩ := List.mem_map.1 hp
    have hstart := CycleInfo.le_of_mem_addrs (hsect c hc) haddr
    have hlast := sectionEnd_eq (hsect c hc)
    have hdata : fieldData d c.sect addr =
        (sectionFields d c.sect).getD (addr.toNat - c.sect * 2 ^ 16) [] := if_neg hend
    rw [BitVec.not_lt, BitVec.le_def] at hend
    have hlt : addr.toNat - c.sect * 2 ^ 16 < (sectionFields d c.sect).length := by
      rw [← List.length_map (f := List.length), map_length_sectionFields]
      show addr.toNat - c.sect * 2 ^ 16 < _
      simp only at hend
      omega
    show (sectionFields d c.sect)[addr.toNat - c.sect * 2 ^ 16]? = some (fieldData d c.sect addr)
    rw [hdata, List.getElem?_eq_getElem hlt, List.getD_eq_getElem _ _ hlt]

/-- A request for existing sections whose reply fits is answered: the frame that is sent
    has just the body that answers it. -/
theorem dictionary_reply (appId : BitVec 32) (d : DictionaryInfo) {rev : List Byte}
    (hsect : ∀ c ∈ items rev, Known c.sect)
    (hfit : 14 + ((items rev).map CycleInfo.size).sum ≤ buffLen) :
    ∃ sent reads, del_smd1_func appId d rev = .ok (sent, reads) ∧
      ∃ body, FrameOf sent Config.tcmd122 appId body ∧ Answers d rev body := by
  rw [← length_requestEntries d] at hfit
  have hcalled : ∀ c ∈ items rev, c.Callable := fun c hc => (callable_iff c).2 (Or.inl (hsect c hc))
  refine ⟨_, _, (del_smd1_func_eq_ok_iff appId d rev).2 ⟨hcalled, hfit, rfl, rfl⟩, replyBody d rev,
    ?_, answers_replyBody hsect hfit⟩
  have hmax : buffLen = 1024 := rfl
  have hbody := length_replyBody d rev
  have hsend : (replySend appId d rev).length = buffLen := length_replySend appId (by omega)
  have hlen : (replyCmd appId d rev).len.toNat = (replyBody d rev).length := by
    show (BitVec.ofNat 16 (replyBody d rev).length).toNat = _
    rw [BitVec.toNat_ofNat, Nat.mod_eq_of_lt]
    omega
  exact frameOf_Abox_send_pack rfl hlen (List.prefix_append _ _) (by omega) (by omega)

/-- A request for three addresses from `0x10003` on, the last one past the end of its
    section, for the whole fourth section, and for two addresses from `0x50001` on. -/
def threeItems : List Byte :=
  [0x24, 121, 1, 0, 0, 0, 22, 0, 1, 0, 3, 0, 3, 0, 1, 0, 3, 0, 0, 0, 4, 0, 6, 0,
    1, 0, 5, 0, 2, 0, 99, 20]

def exampleDictionary : DictionaryInfo where
  firstDicInfo := ⟨310, 2, 0x23010203, 7, 0x1234⟩
  secondDicInfo := ⟨4, 90, 80, 1, 3600⟩
  thirdDicInfo := ⟨1, 5, fun _ => 0x31, fun _ => 0x32⟩
  fourthDicInfo := ⟨21, 31, 8, 20, fun i => BitVec.ofNat 8 (48 + i), fun _ => 0x38⟩
  fifthDicInfo := ⟨4, 200⟩

/-- The request in a slot that held other bytes. -/
theorem dictionary_reply_three : ∃ sent reads,
    del_smd1_func 1 exampleDictionary (inSlot 0xA5 threeItems) = .ok (sent, reads) ∧
      ∃ body, FrameOf sent Config.tcmd122 1 body ∧
        Answers exampleDictionary (inSlot 0xA5 threeItems) body :=
  dictionary_reply 1 exampleDictionary (by decide +kernel) (by decide +kernel)

end Abox.Dictionary
