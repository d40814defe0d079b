import Abox.Config.ServerInfo

/-!
# The file with the network configuration

Model of `handleSerNetConfigFile`, `readNetSet` and what they call
(`drv_usbh.c` lines 50–202). The file `netConfig.ini` has seven lines, each with
its value between a colon and a carriage return.

The values are copied without regard to the size of the field, so `netConfig` is
handled here as the bytes it is in memory. A result `none` means that a file has
more marks than the arrays `k` and `j` have room for.

* `handleSerNetConfigFile_congr`: what the result depends on.
-/

namespace Abox.Config

/-! ## Marks and strings -/

/-- `USB_DATA_MARK1` and `USB_DATA_MARK2` (`drv_usbh.h` lines 19–20). -/
def usbDataMark1 : Byte := 0x3A
def usbDataMark2 : Byte := 0x0D

/-- `USB_BUF_LEN` (`drv_usbh.h` line 18). -/
def usbBufLen : ℕ := 1024

/-- `LINE_NUM_MAX` and `LINE_DATA_LEN_MAX` (`drv_usbh.h` lines 34–35). -/
def lineNumMax : ℕ := 20
def lineDataLenMax : ℕ := 24

/-- `searchCharacter` (lines 50–67): the places of `ch` among the first `bsize`
    bytes. -/
def searchCharacter (cbuf : List Byte) (bsize : ℤ) (ch : Byte) : List ℕ :=
  (List.range bsize.toNat).filter fun i => cbuf.getD i 0 = ch

/-- `rt_strncmp` (`kservice.c` lines 434–446). The difference is a `signed char`. -/
def rt_strncmp (cs ct : List Byte) : ℕ → BitVec 8
  | 0 => 0
  | count + 1 =>
    let res := cs.headD 0 - ct.headD 0
    if res ≠ 0 ∨ cs.headD 0 = 0 then res else rt_strncmp cs.tail ct.tail count

/-- `"wifi"`, `"eth or wifi"`, `"eth"`, `"open"` and `"close"`. -/
def wifiText : List Byte := [0x77, 0x69, 0x66, 0x69]
def ethOrWifiText : List Byte :=
  [0x65, 0x74, 0x68, 0x20, 0x6F, 0x72, 0x20, 0x77, 0x69, 0x66, 0x69]
def ethText : List Byte := [0x65, 0x74, 0x68]
def openText : List Byte := [0x6F, 0x70, 0x65, 0x6E]
def closeText : List Byte := [0x63, 0x6C, 0x6F, 0x73, 0x65]

/-- `e_connectMothod` (`net_config.h` lines 88–94). -/
def ethStyle : BitVec 32 := 1
def wifiStyle : BitVec 32 := 2
def ethWifiStyle : BitVec 32 := 3

/-- `e_clientConnectStatus` (`net_config.h` lines 82–86). -/
def dhcpOpen : BitVec 32 := 0
def dhcpClose : BitVec 32 := 1

/-! ## The lines -/

/-- The places of the fields in `netConfig`. -/
def configStyleOff : ℕ := 0
def statusOff : ℕ := 4
def ipaddrOff : ℕ := 8
def ipmaskaddrOff : ℕ := 24
def ipgatwayaddrOff : ℕ := 40
def wifiNameOff : ℕ := 56
def wifiPasswordOff : ℕ := 80

/-- `WIFI_NAME_MAX` and `WIFI_PASSWORD_MAX` (`net_config.h` lines 64–65). -/
def wifiNameMax : ℕ := 24

/-- `rt_memcpy` of `bs` to `netConfig + off`. -/
def copyTo (config : List Byte) (off : ℕ) (bs : List Byte) : List Byte :=
  config.take off ++ bs ++ config.drop (off + bs.length)

/-- A name or a password (lines 156–166). With `lineLen = 0` the zero is written
    in front of the field. -/
def copyName (config : List Byte) (off : ℕ) (value : List Byte) : List Byte :=
  let config := copyTo config off value
  if value.length < wifiNameMax then copyTo config (off + value.length - 1) [0] else config

/-- One pass of the loop of `handleSerNetConfigFile` (lines 97–168) with the
    first `lineLen` bytes of `lineData` in `value`; the others are zero. `none`:
    the line is wrong. -/
def handleLine (config value : List Byte) : ℕ → Option (List Byte)
  | 0 =>
    if rt_strncmp wifiText value 4 = 0 then
      some (copyTo config configStyleOff (Layout.word.encode wifiStyle))
    else if rt_strncmp ethOrWifiText value 11 = 0 then
      some (copyTo config configStyleOff (Layout.word.encode ethWifiStyle))
    else if rt_strncmp ethText value 3 = 0 then
      some (copyTo config configStyleOff (Layout.word.encode ethStyle))
    else none
  | 1 =>
    if rt_strncmp openText value 4 = 0 then
      some (copyTo config statusOff (Layout.word.encode dhcpOpen))
    else if rt_strncmp closeText value 5 = 0 then
      some (copyTo config statusOff (Layout.word.encode dhcpClose))
    else none
  | 2 => some (copyTo config ipaddrOff value)
  | 3 => some (copyTo config ipmaskaddrOff value)
  | 4 => some (copyTo config ipgatwayaddrOff value)
  | 5 => some (copyName config wifiNameOff value)
  | 6 => some (copyName config wifiPasswordOff value)
  | _ => some config

/-- The return codes of `handleSerNetConfigFile`, which returns the length of a
    line that is too long. -/
def rtEok : BitVec 32 := 0
def rtError : BitVec 32 := 1

/-- The loop over the lines `lines` (lines 95–172), with the marks in `k` and
    `j`. Unused entries of the two arrays are zero. -/
def handleLines (fileBuf : List Byte) (k j : List ℕ) (config : List Byte) :
    List ℕ → BitVec 32 × List Byte
  | [] => (rtEok, config)
  | lineIndex :: lines =>
    let colon := k.getD lineIndex 0
    let lineLen : BitVec 32 := BitVec.ofNat 32 (j.getD lineIndex 0) - BitVec.ofNat 32 colon
    if lineDataLenMax < lineLen.toNat then (lineLen, config)
    else
      match handleLine config (readN (fileBuf.drop (colon + 1)) lineLen.toNat) lineIndex with
      | none => (rtError, config)
      | some config => handleLines fileBuf k j config lines

/-- `clearStrInfo` (lines 70–80). -/
def clearStrInfo (str : List Byte) : List Byte :=
  str.map fun c => if (c < 0x30 ∨ 0x39 < c) ∧ c ≠ 0x2E then 0 else c

/-- The three addresses are cleaned (lines 174–176). -/
def clearAddrs (config : List Byte) : List Byte :=
  let config := copyTo config ipaddrOff (clearStrInfo (readN (config.drop ipaddrOff) 16))
  let config := copyTo config ipmaskaddrOff (clearStrInfo (readN (config.drop ipmaskaddrOff) 16))
  copyTo config ipgatwayaddrOff (clearStrInfo (readN (config.drop ipgatwayaddrOff) 16))

/-- `handleSerNetConfigFile` (lines 83–179). The loop ends with the line
    `WIFI_PASSWORD_LINE`, the seventh one. -/
def handleSerNetConfigFile (serNetConfig : ServerNetInformation) (fileBuf : List Byte)
    (fileSize : ℤ) : Option (BitVec 32 × ServerNetInformation) :=
  let j := searchCharacter fileBuf fileSize usbDataMark2
  let k := searchCharacter fileBuf fileSize usbDataMark1
  if lineNumMax < j.length then none
  else if j = [] then some (rtError, serNetConfig)
  else if lineNumMax < k.length then none
  else if k = [] then some (rtError, serNetConfig)
  else
    let (ret, config) :=
      handleLines fileBuf k j (serConConfigLayout.encode serNetConfig.netConfig) (List.range 7)
    let config := if ret = rtEok then clearAddrs config else config
    some (ret, { serNetConfig with netConfig := serConConfigLayout.decode config })

/-! ## The file on a USB disk -/

/-- `readNetSet` (lines 183–202) on a file with the content `file`, all of which
    `f_read` reads. -/
def readNetSet (file : List Byte) (serNetConfig : ServerNetInformation) :
    Option (BitVec 32 × ServerNetInformation) :=
  if file = [] ∨ usbBufLen < file.length then some (rtError, serNetConfig)
  else
    let buff := copyTo (List.replicate usbBufLen 0) 0 file
    handleSerNetConfigFile serNetConfig buff file.length

/-- What is done with the result of `handleSerNetConfigFile`: whether the file is
    accepted, and the system with the configuration that is stored. -/
def takeOver (s : ServerSystem) (res : Option (BitVec 32 × ServerNetInformation)) :
    Option (Bool × ServerSystem) :=
  match res with
  | none => none
  | some (et, serNetConfig) =>
    if et = rtEok then
      (controlServerInfo s .writeNetconfigInfo (some serNetConfig)).map fun (s, _) => (true, s)
    else some (false, s)

/-- The part of `USH_User_App` about the file (lines 360–383): whether `netMark`
    is `NET_SET_OK`, and the system. `serNetConfig` is what was on the stack. -/
def netSet (s : ServerSystem) (serNetConfig : ServerNetInformation) (file : List Byte) :
    Option (Bool × ServerSystem) := takeOver s (readNetSet file serNetConfig)

/-! ## What the result depends on -/

theorem mem_searchCharacter {cbuf : List Byte} {bsize : ℤ} {ch : Byte} {i : ℕ} :
    i ∈ searchCharacter cbuf bsize ch ↔ i < bsize.toNat ∧ cbuf.getD i 0 = ch := by
  unfold searchCharacter
  rw [List.mem_filter, List.mem_range, decide_eq_true_iff]

/-- The marks are searched among the first `n` bytes. -/
theorem searchCharacter_congr {cbuf cbuf' : List Byte} {n : ℕ}
    (h : ∀ i < n, cbuf.getD i 0 = cbuf'.getD i 0) (ch : Byte) :
    searchCharacter cbuf n ch = searchCharacter cbuf' n ch := by
  apply List.filter_congr
  intro i hi
  rw [h i (List.mem_range.1 hi)]

/-- Zeros behind a file are no marks. -/
theorem searchCharacter_zeros {cbuf : List Byte} {n : ℕ}
    (hzero : ∀ i, n ≤ i → cbuf.getD i 0 = 0) {ch : Byte} (hch : ch ≠ 0) (k : ℕ) :
    searchCharacter cbuf (n + k : ℕ) ch = searchCharacter cbuf n ch := by
  show (List.range (n + k)).filter _ = (List.range n).filter _
  rw [List.range_add, List.filter_append, List.filter_map]
  have hnone : (List.range k).filter
      ((fun i => decide (cbuf.getD i 0 = ch)) ∘ fun x => n + x) = [] := by
    rw [List.filter_eq_nil_iff]
    intro i _
    rw [Function.comp_apply, hzero (n + i) (Nat.le_add_right n i), decide_eq_true_iff]
    exact hch.symm
  rw [hnone, List.map_nil, List.append_nil]

/-- A line that is not too long: its two marks, as numbers. -/
theorem lineLen_eq {j k : ℕ} (hj : j < 2 ^ 31) (hk : k < 2 ^ 31)
    (h : ¬ lineDataLenMax < (BitVec.ofNat 32 j - BitVec.ofNat 32 k).toNat) :
    k ≤ j ∧ (BitVec.ofNat 32 j - BitVec.ofNat 32 k).toNat = j - k := by
  unfold lineDataLenMax at h
  rw [BitVec.toNat_sub, BitVec.toNat_ofNat, BitVec.toNat_ofNat] at h ⊢
  omega

theorem getD_drop (bs : List Byte) (m k : ℕ) : (bs.drop m).getD k 0 = bs.getD (m + k) 0 := by
  rw [List.getD_eq_getElem?_getD, List.getElem?_drop, ← List.getD_eq_getElem?_getD]

theorem handleLines_congr {fileBuf fileBuf' : List Byte} {k j : List ℕ} {bound : ℕ}
    (hbound : bound ≤ 2 ^ 31) (hk : ∀ i ∈ k, i < bound) (hj : ∀ i ∈ j, i < bound)
    (h : ∀ i < bound, fileBuf.getD i 0 = fileBuf'.getD i 0) (config : List Byte)
    (lines : List ℕ) :
    handleLines fileBuf k j config lines = handleLines fileBuf' k j config lines := by
  induction lines generalizing config with
  | nil => rfl
  | cons i lines ih =>
    have hentry : ∀ l : List ℕ, (∀ x ∈ l, x < bound) → l.getD i 0 = 0 ∨ l.getD i 0 < bound := by
      intro l hl
      by_cases hi : i < l.length
      · rw [List.getD_eq_getElem _ _ hi]
        exact Or.inr (hl _ (List.getElem_mem hi))
      · exact Or.inl (List.getD_eq_default _ _ (Nat.le_of_not_lt hi))
    unfold handleLines
    dsimp only
    split_ifs with hlen
    · rfl
    · obtain ⟨hle, hsub⟩ := lineLen_eq (by have := hentry j hj; omega)
        (by have := hentry k hk; omega) hlen
      have hread : readN (fileBuf.drop (k.getD i 0 + 1)) (j.getD i 0 - k.getD i 0) =
          readN (fileBuf'.drop (k.getD i 0 + 1)) (j.getD i 0 - k.getD i 0) := by
        apply List.map_congr_left
        intro t ht
        have hlt : k.getD i 0 + 1 + t < bound := by
          have := List.mem_range.1 ht
          have := hentry j hj
          omega
        rw [getD_drop, getD_drop, h _ hlt]
      rw [hsub, hread]
      generalize readN (fileBuf'.drop (k.getD i 0 + 1)) (j.getD i 0 - k.getD i 0) = value
      cases handleLine config value i with
      | none => rfl
      | some config => exact ih config

/-- Only the places of the marks and the bytes in front of the last ones matter. -/
theorem handleSerNetConfigFile_congr {fileBuf fileBuf' : List Byte} {fileSize fileSize' : ℤ}
    (hsize : fileSize'.toNat ≤ 2 ^ 31)
    (hmark1 : searchCharacter fileBuf fileSize usbDataMark1 =
      searchCharacter fileBuf' fileSize' usbDataMark1)
    (hmark2 : searchCharacter fileBuf fileSize usbDataMark2 =
      searchCharacter fileBuf' fileSize' usbDataMark2)
    (h : ∀ i < fileSize'.toNat, fileBuf.getD i 0 = fileBuf'.getD i 0)
    (serNetConfig : ServerNetInformation) :
    handleSerNetConfigFile serNetConfig fileBuf fileSize =
      handleSerNetConfigFile serNetConfig fileBuf' fileSize' := by
  have hlines := handleLines_congr hsize
    (fun i hi => (mem_searchCharacter.1 hi).1 :
      ∀ i ∈ searchCharacter fileBuf' fileSize' usbDataMark1, i < fileSize'.toNat)
    (fun i hi => (mem_searchCharacter.1 hi).1 :
      ∀ i ∈ searchCharacter fileBuf' fileSize' usbDataMark2, i < fileSize'.toNat) h
  unfold handleSerNetConfigFile
  rw [hmark1, hmark2]
  simp only [hlines]

end Abox.Config
