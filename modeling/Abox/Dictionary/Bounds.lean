import Abox.Dictionary.Command
import Abox.Dictionary.Entries

/-!
# Bounds of a dictionary request

The reply is as long as the items ask for, and `getDicInfo` tests its length once for
each item, before it writes; the number of items is not compared with the length of the
frame; and for a section that does not exist `endAddr` stays 0, so that at the address 0
`getDataFunc` is called without a value.

* `dictionary_safe_iff`: the requests for which `del_smd1_func` stays inside `send` and
  the frame and calls no unset function.
-/

namespace Abox.Dictionary

open Server Update

/-- The length of the entries for an item. -/
def CycleInfo.size (c : CycleInfo) : ℕ := (c.addrs.map fun addr => 6 + fieldWidth c.sect addr).sum

/-- The count and the items end inside the frame; an item that starts in no section does
    not reach the address 0; and header, scmd, count, entries and checksum fit into
    `send`. -/
structure SafeRequest (frame : List Byte) : Prop where
  read : 12 + 6 * (requestCount frame).toNat ≤ frame.length
  called : ∀ c ∈ items frame, Known c.sect ∨ 0 ∉ c.addrs
  written : 14 + ((items frame).map CycleInfo.size).sum ≤ buffLen

theorem callable_iff (c : CycleInfo) : c.Callable ↔ Known c.sect ∨ 0 ∉ c.addrs := by
  unfold CycleInfo.Callable Called
  by_cases hs : Known c.sect
  · exact iff_of_true (fun _ _ => Or.inl hs) (Or.inl hs)
  · rw [or_iff_right hs]
    constructor
    · exact fun h hzero => ((h 0 hzero).resolve_left hs) rfl
    · exact fun h addr haddr => Or.inr fun hzero => h (hzero ▸ haddr)

theorem length_entries (d : DictionaryInfo) (c : CycleInfo) : (c.entries d).length = c.size := by
  unfold CycleInfo.entries CycleInfo.size
  rw [List.length_flatMap]
  simp only [length_entry]

theorem length_requestEntries (d : DictionaryInfo) (rev : List Byte) :
    (requestEntries d rev).length = ((items rev).map CycleInfo.size).sum := by
  unfold requestEntries
  rw [List.length_flatMap]
  simp only [length_entries]

/-- A count inside the frame is not affected by what is behind it. -/
theorem requestCount_append {frame : List Byte} (h : 12 ≤ frame.length) (slot : List Byte) :
    requestCount (frame ++ slot) = requestCount frame :=
  u16At_append h slot

/-- The places of items inside a frame do not wrap. -/
theorem toNat_itemOffset {k : ℕ} (hk : k ≤ 170) :
    (12 + BitVec.ofNat 16 (6 * k)).toNat = 12 + 6 * k ∧
      (12 + BitVec.ofNat 16 (6 * k) + 4).toNat = 12 + 6 * k + 4 := by
  constructor
  · bv_omega
  · bv_omega

/-- Nor are the items. -/
theorem items_append {frame : List Byte} (hmax : frame.length ≤ buffLen)
    (h : 12 + 6 * (requestCount frame).toNat ≤ frame.length) (slot : List Byte) :
    items (frame ++ slot) = items frame := by
  have hbuf : buffLen = 1024 := rfl
  have hcount : requestCount (frame ++ slot) = requestCount frame :=
    requestCount_append (by omega) slot
  unfold items itemOffsets counted
  rw [hcount, List.map_map, List.map_map]
  refine List.map_congr_left fun k hk => ?_
  have hk' := List.mem_range.1 hk
  obtain ⟨h1, h2⟩ := toNat_itemOffset (k := k) (by omega)
  show itemAt (frame ++ slot) _ = itemAt frame _
  unfold itemAt
  rw [h1, h2, u32At_append (by omega), u16At_append (by omega)]

/-- The count and the items are read inside a frame of at most `BUFF_LEN` bytes exactly if
    the last one ends inside. -/
theorem reads_inside_iff {frame : List Byte} (h : frame.length ≤ buffLen) (slot : List Byte) :
    (∀ r ∈ (10, 2) :: (itemOffsets (frame ++ slot)).flatMap itemReads, r.1 + r.2 ≤ frame.length) ↔
      12 + 6 * (requestCount frame).toNat ≤ frame.length := by
  have hmax : buffLen = 1024 := rfl
  rw [List.forall_mem_cons, List.forall_mem_flatMap]
  unfold itemOffsets counted
  rw [List.forall_mem_map]
  constructor
  · rintro ⟨htwelve, hall⟩
    rw [requestCount_append htwelve] at hall
    by_contra hlt
    -- the last item that is within reach of `dataLen`
    obtain ⟨k, hk⟩ : ∃ k, k = min ((requestCount frame).toNat - 1) 170 := ⟨_, rfl⟩
    have hlast := hall k (List.mem_range.2 (by omega)) _ (List.mem_cons_of_mem _ (by
      exact List.mem_singleton_self _))
    obtain ⟨-, hlen⟩ := toNat_itemOffset (k := k) (by omega)
    simp only [hlen] at hlast
    omega
  · intro hle
    refine ⟨by omega, fun k hk r hr => ?_⟩
    rw [requestCount_append (by omega)] at hk
    have hk' := List.mem_range.1 hk
    obtain ⟨h1, h2⟩ := toNat_itemOffset (k := k) (by omega)
    simp only [itemReads, List.mem_cons, List.not_mem_nil, or_false] at hr
    rcases hr with rfl | rfl
    · show _ + 4 ≤ _
      rw [h1]
      omega
    · show _ + 2 ≤ _
      rw [h2]
      omega

/-- A received request is answered without a fault, and with no read of the count or of an
    item past the end of the frame, exactly if it is safe; the bytes behind the frame do
    not matter. -/
theorem dictionary_safe_iff (appId : BitVec 32) (d : DictionaryInfo) {frame rev : List Byte}
    (h : Received tcmd121ScmdLookInfo frame rev) :
    (∃ sent reads, del_smd1_func appId d rev = .ok (sent, reads) ∧
        ∀ r ∈ reads, r.1 + r.2 ≤ frame.length) ↔ SafeRequest frame := by
  have hmax := h.length_le
  obtain ⟨slot, rfl⟩ := h.front
  simp only [del_smd1_func_eq_ok_iff, callable_iff, length_requestEntries]
  constructor
  · rintro ⟨_, _, ⟨hcalled, hwritten, -, rfl⟩, hreads⟩
    have hread := (reads_inside_iff hmax slot).1 hreads
    rw [items_append hmax hread] at hcalled hwritten
    exact ⟨hread, hcalled, hwritten⟩
  · rintro ⟨hread, hcalled, hwritten⟩
    rw [← items_append hmax hread slot] at hcalled hwritten
    exact ⟨_, _, ⟨hcalled, hwritten, rfl, rfl⟩, (reads_inside_iff hmax slot).2 hread⟩

/-- A request for `0x10000` and `0x10001`. -/
def twoFields : List Byte :=
  [0x24, 121, 1, 0, 0, 0, 10, 0, 1, 0, 1, 0, 0, 0, 1, 0, 2, 0, 129, 139]

def zeroDictionary : DictionaryInfo where
  firstDicInfo := ⟨0, 0, 0, 0, 0⟩
  secondDicInfo := ⟨0, 0, 0, 0, 0⟩
  thirdDicInfo := ⟨0, 0, fun _ => 0, fun _ => 0⟩
  fourthDicInfo := ⟨0, 0, 0, 0, fun _ => 0, fun _ => 0⟩
  fifthDicInfo := ⟨0, 0⟩

theorem wellFormed_twoFields : WellFormed twoFields :=
  ⟨by decide, by decide, by decide, by decide, by decide +kernel⟩

theorem received_twoFields : Received tcmd121ScmdLookInfo twoFields (inSlot 0xA5 twoFields) :=
  received_inSlot wellFormed_twoFields rfl rfl 0xA5

theorem dictionary_safe_two : ∃ sent reads,
    del_smd1_func 1 zeroDictionary (inSlot 0xA5 twoFields) = .ok (sent, reads) ∧
      ∀ r ∈ reads, r.1 + r.2 ≤ twoFields.length :=
  (dictionary_safe_iff 1 zeroDictionary received_twoFields).2
    ⟨by decide, by decide, by decide⟩

/-- 200 addresses that do not exist, from `0x60000` on; the address 0; a request for one
    item that ends before it; and one that ends before the count. -/
def longRequest : List Byte :=
  [0x24, 121, 1, 0, 0, 0, 10, 0, 1, 0, 1, 0, 0, 0, 6, 0, 200, 0, 214, 95]
def zeroRequest : List Byte :=
  [0x24, 121, 1, 0, 0, 0, 10, 0, 1, 0, 1, 0, 0, 0, 0, 0, 1, 0, 128, 135]
def cutRequest : List Byte := [0x24, 121, 1, 0, 0, 0, 4, 0, 1, 0, 1, 0, 192, 2]
def bareRequest : List Byte := [0x24, 121, 0x7D, 0x78, 0, 0, 0, 0, 1, 0]

/-- A slot in which a count of one item is left behind `bareRequest`. -/
def staleSlot : List Byte := 1 :: List.replicate 1013 0

/-- The parser accepts them. The answer to the first does not fit into `send`, that to the
    second calls an unset function, and those to the others are read behind the frame. -/
theorem dictionary_unsafe :
    (Received tcmd121ScmdLookInfo longRequest (inSlot 0 longRequest) ∧
      Received tcmd121ScmdLookInfo zeroRequest (inSlot 0 zeroRequest) ∧
      Received tcmd121ScmdLookInfo cutRequest (inSlot 0 cutRequest) ∧
      Received tcmd121ScmdLookInfo bareRequest (bareRequest ++ staleSlot)) ∧
    (∀ sent reads, del_smd1_func 1 zeroDictionary (inSlot 0 longRequest) ≠ .ok (sent, reads)) ∧
    del_smd1_func 1 zeroDictionary (inSlot 0 zeroRequest) = .error .unsetFunc ∧
    (∃ sent reads, del_smd1_func 1 zeroDictionary (inSlot 0 cutRequest) = .ok (sent, reads) ∧
      (12, 4) ∈ reads ∧ cutRequest.length < 12 + 4) ∧
    ∃ sent reads, del_smd1_func 1 zeroDictionary (bareRequest ++ staleSlot) = .ok (sent, reads) ∧
      (12, 4) ∈ reads ∧ bareRequest.length < 12 := by
  refine ⟨⟨?_, ?_, ?_, ?_⟩, ?_, by decide +kernel, ?_, ?_⟩
  · have h : WellFormed longRequest :=
      ⟨by decide, by decide, by decide, by decide, by decide +kernel⟩
    exact received_inSlot h rfl rfl 0
  · have h : WellFormed zeroRequest :=
      ⟨by decide, by decide, by decide, by decide, by decide +kernel⟩
    exact received_inSlot h rfl rfl 0
  · have h : WellFormed cutRequest :=
      ⟨by decide, by decide, by decide, by decide, by decide +kernel⟩
    exact received_inSlot h rfl rfl 0
  · have h : WellFormed bareRequest :=
      ⟨by decide, by decide, by decide, by decide, by decide +kernel⟩
    refine received_of_wellFormed h rfl rfl ?_
    rw [staleSlot, List.length_cons, List.length_replicate]
    rfl
  · intro sent reads h
    obtain ⟨-, hfit, -⟩ := (del_smd1_func_eq_ok_iff 1 zeroDictionary (inSlot 0 longRequest)).1 h
    rw [length_requestEntries] at hfit
    exact absurd hfit (by decide +kernel)
  · refine ⟨_, _, (del_smd1_func_eq_ok_iff 1 zeroDictionary _).2 ⟨?_, ?_, rfl, rfl⟩, ?_, ?_⟩
    · simp only [callable_iff]
      decide +kernel
    · rw [length_requestEntries]
      decide +kernel
    · decide +kernel
    · decide
  · refine ⟨_, _, (del_smd1_func_eq_ok_iff 1 zeroDictionary _).2 ⟨?_, ?_, rfl, rfl⟩, ?_, ?_⟩
    · simp only [callable_iff]
      decide +kernel
    · rw [length_requestEntries]
      decide +kernel
    · decide +kernel
    · decide

end Abox.Dictionary
