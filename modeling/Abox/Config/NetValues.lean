import Abox.Config.NetFile

/-!
# What a network file is parsed to

The `i`-th value of a file is taken from the `i`-th `':'` in the file to the `i`-th
carriage return (`drv_usbh.c` lines 83–179), and a zero is written over the carriage
return of a name or a password if the line is shorter than the field.

* `netFile_iff`: of the files with the seven lines in order, those are stored
  value by value whose name has no `':'`, whose name and password leave room for a
  zero in front of the last byte of the field, and that have at most twenty `':'`.
* `netFile_full_name`: a name of 23 characters is not terminated.
-/

namespace Abox.Config

/-! ## The places of a byte -/

/-- The places of `ch` in `bs`. -/
def places (ch : Byte) (bs : List Byte) : List ℕ :=
  (List.range bs.length).filter fun i => bs.getD i 0 = ch

/-- The marks of a file in front of whatever is behind it in the buffer. -/
theorem searchCharacter_eq_places (bs rest : List Byte) (ch : Byte) :
    searchCharacter (bs ++ rest) bs.length ch = places ch bs := by
  apply List.filter_congr
  intro i hi
  rw [List.getD_append _ _ _ _ (List.mem_range.1 hi)]

theorem places_append (ch : Byte) (as bs : List Byte) :
    places ch (as ++ bs) = places ch as ++ (places ch bs).map (as.length + ·) := by
  unfold places
  rw [List.length_append, List.range_add, List.filter_append, List.filter_map]
  congr 1
  · apply List.filter_congr
    intro i hi
    rw [List.getD_append _ _ _ _ (List.mem_range.1 hi)]
  · congr 1
    apply List.filter_congr
    intro i _
    show decide ((as ++ bs).getD (as.length + i) 0 = ch) = _
    rw [List.getD_append_right _ _ _ _ (Nat.le_add_right ..), Nat.add_sub_cancel_left]

theorem places_cons (ch b : Byte) (bs : List Byte) :
    places ch (b :: bs) = (if b = ch then [0] else []) ++ (places ch bs).map (1 + ·) := by
  have hone : places ch [b] = if b = ch then [0] else [] := by
    by_cases h : b = ch <;> simp [places, h]
  rw [← hone]
  exact places_append ch [b] bs

theorem length_places (ch : Byte) (bs : List Byte) : (places ch bs).length = bs.count ch := by
  induction bs with
  | nil => rfl
  | cons b bs ih =>
    rw [places_cons, List.length_append, List.length_map, ih, List.count_cons]
    by_cases h : b = ch
    · simp [h, Nat.add_comm]
    · simp [h]

/-- The place of a byte is found under the number of its occurrences in front of it. -/
theorem getD_places (ch : Byte) (as bs : List Byte) :
    (places ch (as ++ ch :: bs)).getD (as.count ch) 0 = as.length := by
  rw [places_append, places_cons, if_pos rfl, ← length_places,
    List.getD_append_right _ _ _ _ le_rfl, Nat.sub_self]
  simp

/-! ## Copying into a configuration -/

/-- What is copied into a field leaves the others as they are. -/
theorem copyTo_flatten (l : List (List Byte)) {i : ℕ} (hi : i < l.length) {off : ℕ}
    (hoff : off = (l.take i).flatten.length) {bs : List Byte} (h : bs.length ≤ l[i].length) :
    copyTo l.flatten off bs = (l.set i (bs ++ l[i].drop bs.length)).flatten := by
  subst hoff
  have hsplit : l.flatten = (l.take i).flatten ++ (l[i] ++ (l.drop (i + 1)).flatten) := by
    rw [← List.flatten_cons, ← List.drop_eq_getElem_cons hi, ← List.flatten_append,
      List.take_append_drop]
  unfold copyTo
  rw [List.set_eq_take_append_cons_drop, if_pos hi, hsplit, List.take_left, List.drop_append,
    List.drop_of_length_le (Nat.le_add_right ..), List.nil_append, Nat.add_sub_cancel_left,
    List.drop_append_of_le_length h, List.flatten_append, List.flatten_cons, List.append_assoc,
    List.append_assoc]

theorem readN_flatten (l : List (List Byte)) {i : ℕ} (hi : i < l.length) {off n : ℕ}
    (hoff : off = (l.take i).flatten.length) (hn : n = l[i].length) :
    readN (l.flatten.drop off) n = l[i] := by
  subst hoff hn
  have hsplit : l.flatten = (l.take i).flatten ++ (l[i] ++ (l.drop (i + 1)).flatten) := by
    rw [← List.flatten_cons, ← List.drop_eq_getElem_cons hi, ← List.flatten_append,
      List.take_append_drop]
  rw [hsplit, List.drop_left, readN_of_le (by simp), List.take_left]

theorem encode_chars {n : ℕ} (f : Chars n) : (Layout.byte.array n).encode f = List.ofFn f := by
  induction n with
  | zero => rfl
  | succ n ih =>
    rw [List.ofFn_succ]
    show [f 0] ++ (Layout.byte.array n).encode (fun i => f i.succ) = _
    rw [ih]
    rfl

/-- A field after `bs` was copied to its front. -/
def Chars.copy {n : ℕ} (f : Chars n) (bs : List Byte) : Chars n :=
  fun i => if i < bs.length then bs.getD i 0 else f i

theorem ofFn_copy {n : ℕ} (f : Chars n) {bs : List Byte} (h : bs.length ≤ n) :
    List.ofFn (f.copy bs) = bs ++ (List.ofFn f).drop bs.length := by
  apply List.ext_getElem
  · simp [h]
  · intro i h1 h2
    rw [List.getElem_ofFn, Chars.copy]
    by_cases hi : i < bs.length
    · rw [if_pos hi, List.getElem_append_left hi, List.getD_eq_getElem _ _ hi]
    · rw [if_neg hi, List.getElem_append_right (Nat.le_of_not_lt hi)]
      simp [Nat.add_sub_cancel' (Nat.le_of_not_lt hi)]

/-- A field after `clearStrInfo`. -/
def Chars.clear {n : ℕ} (f : Chars n) : Chars n :=
  fun i => if (f i < 0x30 ∨ 0x39 < f i) ∧ f i ≠ 0x2E then 0 else f i

theorem ofFn_clear {n : ℕ} (f : Chars n) : List.ofFn f.clear = clearStrInfo (List.ofFn f) := by
  unfold clearStrInfo
  rw [List.map_ofFn]
  rfl

theorem copy_ofFn {n : ℕ} (f g : Chars n) : f.copy (List.ofFn g) = g := by
  funext i
  simp [Chars.copy, i.isLt]

/-- The fields of a configuration, each as the bytes it is in memory. -/
def fields (c : SerConConfig) : List (List Byte) :=
  [Layout.word.encode c.configStyle, Layout.word.encode c.ethConfig.status,
    List.ofFn c.ethConfig.netAddrConfig.ipaddr, List.ofFn c.ethConfig.netAddrConfig.ipmaskaddr,
    List.ofFn c.ethConfig.netAddrConfig.ipgatwayaddr, List.ofFn c.wifiConfig.wifiName,
    List.ofFn c.wifiConfig.wifiPassword]

theorem encode_config (c : SerConConfig) : serConConfigLayout.encode c = (fields c).flatten := by
  simp only [fields, ← encode_chars]
  show _ ++ ((_ ++ (_ ++ (_ ++ _))) ++ (_ ++ _)) = _
  simp [List.append_assoc]

/-- The lengths of the fields. -/
def fieldSizes : List ℕ := [4, 4, 16, 16, 16, 24, 24]

theorem length_take_fields (c : SerConConfig) (i : ℕ) :
    ((fields c).take i).flatten.length = (fieldSizes.take i).sum := by
  have hsizes : (fields c).map List.length = fieldSizes := by
    simp [fields, fieldSizes, Layout.word]
  rw [List.length_flatten, List.map_take, hsizes]

section

variable {c c' : SerConConfig} {n i off : ℕ} {f : Chars n} {bs : List Byte}

/-- Bytes that fit are copied into field `i`. -/
theorem copyTo_field (hi : i < 7) (hoff : off = (fieldSizes.take i).sum)
    (hf : (fields c)[i]? = some (List.ofFn f)) (h : bs.length ≤ n)
    (hc' : fields c' = (fields c).set i (List.ofFn (f.copy bs))) :
    copyTo (serConConfigLayout.encode c) off bs = serConConfigLayout.encode c' := by
  have hlt : i < (fields c).length := hi
  have hget : (fields c)[i] = List.ofFn f :=
    Option.some.inj ((List.getElem?_eq_getElem hlt).symm.trans hf)
  rw [encode_config, encode_config, hc', copyTo_flatten (fields c) hlt
    (hoff.trans (length_take_fields c i).symm) (by rw [hget, List.length_ofFn]; exact h), hget,
    ofFn_copy f h]

/-- Field `i` is cleaned in its place. -/
theorem clean_field (hi : i < 7) (hoff : off = (fieldSizes.take i).sum)
    (hf : (fields c)[i]? = some (List.ofFn f))
    (hc' : fields c' = (fields c).set i (List.ofFn f.clear)) :
    copyTo (serConConfigLayout.encode c) off
        (clearStrInfo (readN ((serConConfigLayout.encode c).drop off) n)) =
      serConConfigLayout.encode c' := by
  have hlt : i < (fields c).length := hi
  have hget : (fields c)[i] = List.ofFn f :=
    Option.some.inj ((List.getElem?_eq_getElem hlt).symm.trans hf)
  have hread : readN ((serConConfigLayout.encode c).drop off) n = List.ofFn f := by
    rw [encode_config, readN_flatten (fields c) hlt (hoff.trans (length_take_fields c i).symm)
      (by rw [hget, List.length_ofFn]), hget]
  rw [hread, ← ofFn_clear]
  refine copyTo_field hi hoff hf (by rw [List.length_ofFn]) ?_
  rw [hc', copy_ofFn]

end

section

variable (c : SerConConfig) {bs : List Byte}

theorem copyTo_configStyle (v : BitVec 32) :
    copyTo (serConConfigLayout.encode c) configStyleOff (Layout.word.encode v) =
      serConConfigLayout.encode { c with configStyle := v } := by
  rw [encode_config, encode_config]
  exact copyTo_flatten (fields c) (i := 0) (by simp [fields]) rfl le_rfl

theorem copyTo_status (v : BitVec 32) :
    copyTo (serConConfigLayout.encode c) statusOff (Layout.word.encode v) =
      serConConfigLayout.encode { c with ethConfig := { c.ethConfig with status := v } } := by
  rw [encode_config, encode_config]
  exact copyTo_flatten (fields c) (i := 1) (by simp [fields]) rfl le_rfl

theorem copyTo_ipaddr (h : bs.length ≤ 16) :
    copyTo (serConConfigLayout.encode c) ipaddrOff bs = serConConfigLayout.encode
      { c with ethConfig.netAddrConfig.ipaddr := c.ethConfig.netAddrConfig.ipaddr.copy bs } :=
  copyTo_field (i := 2) (by decide) rfl rfl h rfl

theorem copyTo_ipmaskaddr (h : bs.length ≤ 16) :
    copyTo (serConConfigLayout.encode c) ipmaskaddrOff bs = serConConfigLayout.encode
      { c with
        ethConfig.netAddrConfig.ipmaskaddr := c.ethConfig.netAddrConfig.ipmaskaddr.copy bs } :=
  copyTo_field (i := 3) (by decide) rfl rfl h rfl

theorem copyTo_ipgatwayaddr (h : bs.length ≤ 16) :
    copyTo (serConConfigLayout.encode c) ipgatwayaddrOff bs = serConConfigLayout.encode
      { c with
        ethConfig.netAddrConfig.ipgatwayaddr :=
          c.ethConfig.netAddrConfig.ipgatwayaddr.copy bs } :=
  copyTo_field (i := 4) (by decide) rfl rfl h rfl

theorem copyTo_wifiName (h : bs.length ≤ 24) :
    copyTo (serConConfigLayout.encode c) wifiNameOff bs = serConConfigLayout.encode
      { c with wifiConfig.wifiName := c.wifiConfig.wifiName.copy bs } :=
  copyTo_field (i := 5) (by decide) rfl rfl h rfl

theorem copyTo_wifiPassword (h : bs.length ≤ 24) :
    copyTo (serConConfigLayout.encode c) wifiPasswordOff bs = serConConfigLayout.encode
      { c with wifiConfig.wifiPassword := c.wifiConfig.wifiPassword.copy bs } :=
  copyTo_field (i := 6) (by decide) rfl rfl h rfl

theorem clean_ipaddr :
    copyTo (serConConfigLayout.encode c) ipaddrOff
        (clearStrInfo (readN ((serConConfigLayout.encode c).drop ipaddrOff) 16)) =
      serConConfigLayout.encode
        { c with ethConfig.netAddrConfig.ipaddr := c.ethConfig.netAddrConfig.ipaddr.clear } :=
  clean_field (i := 2) (by decide) rfl rfl rfl

theorem clean_ipmaskaddr :
    copyTo (serConConfigLayout.encode c) ipmaskaddrOff
        (clearStrInfo (readN ((serConConfigLayout.encode c).drop ipmaskaddrOff) 16)) =
      serConConfigLayout.encode
        { c with
          ethConfig.netAddrConfig.ipmaskaddr := c.ethConfig.netAddrConfig.ipmaskaddr.clear } :=
  clean_field (i := 3) (by decide) rfl rfl rfl

theorem clean_ipgatwayaddr :
    copyTo (serConConfigLayout.encode c) ipgatwayaddrOff
        (clearStrInfo (readN ((serConConfigLayout.encode c).drop ipgatwayaddrOff) 16)) =
      serConConfigLayout.encode
        { c with
          ethConfig.netAddrConfig.ipgatwayaddr :=
            c.ethConfig.netAddrConfig.ipgatwayaddr.clear } :=
  clean_field (i := 4) (by decide) rfl rfl rfl

/-- The three addresses are cleaned in their places. -/
theorem clearAddrs_encode :
    clearAddrs (serConConfigLayout.encode c) = serConConfigLayout.encode
      { c with ethConfig.netAddrConfig :=
          { ipaddr := c.ethConfig.netAddrConfig.ipaddr.clear
            ipmaskaddr := c.ethConfig.netAddrConfig.ipmaskaddr.clear
            ipgatwayaddr := c.ethConfig.netAddrConfig.ipgatwayaddr.clear } } := by
  unfold clearAddrs
  simp only [clean_ipaddr, clean_ipmaskaddr, clean_ipgatwayaddr]

end

/-- A name with the carriage return behind it: a zero is written over it unless the
    line is as long as the field. -/
theorem copyName_eq {config : List Byte} {off : ℕ} (hoff : off ≤ config.length) (w : List Byte) :
    copyName config off (w ++ [usbDataMark2]) =
      copyTo config off (w ++ [if w.length + 1 < wifiNameMax then 0 else usbDataMark2]) := by
  unfold copyName
  have hlen : (w ++ [usbDataMark2]).length = w.length + 1 := by simp
  by_cases h : w.length + 1 < wifiNameMax
  · have hfront : (config.take off ++ w).length = off + (w ++ [usbDataMark2]).length - 1 := by
      rw [List.length_append, List.length_take, hlen]
      omega
    rw [if_pos (by rwa [hlen]), if_pos h]
    unfold copyTo
    rw [← List.append_assoc (config.take off), List.append_assoc _ [usbDataMark2], ← hfront,
      List.take_left, List.drop_append, List.drop_of_length_le (by simp), Nat.add_sub_cancel_left]
    simp [List.append_assoc]
  · rw [if_neg (by rwa [hlen]), if_neg h]

/-! ## The files -/

/-- `wifi`, `eth or wifi` or `eth`. -/
inductive StyleValue
  | wifi
  | ethOrWifi
  | eth
  deriving DecidableEq

/-- `open` or `close`. -/
inductive DhcpValue
  | opened
  | closed
  deriving DecidableEq

def StyleValue.text : StyleValue → List Byte
  | .wifi => wifiText
  | .ethOrWifi => ethOrWifiText
  | .eth => ethText

def StyleValue.code : StyleValue → BitVec 32
  | .wifi => wifiStyle
  | .ethOrWifi => ethWifiStyle
  | .eth => ethStyle

def DhcpValue.text : DhcpValue → List Byte
  | .opened => openText
  | .closed => closeText

def DhcpValue.code : DhcpValue → BitVec 32
  | .opened => dhcpOpen
  | .closed => dhcpClose

/-- A dotted address: digits and dots, at most 15 of them. -/
structure Address where
  chars : List Byte
  dotted : ∀ c ∈ chars, (0x30 ≤ c ∧ c ≤ 0x39) ∨ c = 0x2E
  length_le : chars.length ≤ 15

/-- A name or a password: no carriage return, at most 23 bytes. -/
structure Name where
  chars : List Byte
  free : usbDataMark2 ∉ chars
  length_le : chars.length ≤ wifiNameMax - 1

/-- A key: no colon and no carriage return. -/
structure Key where
  chars : List Byte
  no_colon : usbDataMark1 ∉ chars
  free : usbDataMark2 ∉ chars

/-- The seven lines of a file. -/
structure NetFile where
  keys : Fin 7 → Key
  style : StyleValue
  dhcp : DhcpValue
  ipaddr : Address
  ipmaskaddr : Address
  ipgatwayaddr : Address
  wifiName : Name
  wifiPassword : Name

namespace NetFile

variable (f : NetFile)

/-- The value of a line. -/
def value : Fin 7 → List Byte
  | 0 => f.style.text
  | 1 => f.dhcp.text
  | 2 => f.ipaddr.chars
  | 3 => f.ipmaskaddr.chars
  | 4 => f.ipgatwayaddr.chars
  | 5 => f.wifiName.chars
  | 6 => f.wifiPassword.chars

/-- A line up to its value, and the line with its end. -/
def upTo (i : Fin 7) : List Byte := (f.keys i).chars ++ [usbDataMark1] ++ f.value i

def line (i : Fin 7) : List Byte := f.upTo i ++ [usbDataMark2, 0x0A]

/-- The lines in front of line `i`, and those behind it. -/
def linesBefore (i : Fin 7) : List Byte := ((List.finRange 7).take i).flatMap f.line

def linesAfter (i : Fin 7) : List Byte := ((List.finRange 7).drop (i + 1)).flatMap f.line

/-- The bytes of the file. -/
def content : List Byte := (List.finRange 7).flatMap f.line

end NetFile

/-- The field holds the string, with a zero behind it. -/
def Stored {n : ℕ} (f : Chars n) (v : List Byte) : Prop :=
  (List.ofFn f).take (v.length + 1) = v ++ [0]

instance {n : ℕ} (f : Chars n) (v : List Byte) : Decidable (Stored f v) :=
  inferInstanceAs (Decidable (_ = _))

/-- The configuration has the seven values of the file. -/
structure NetFile.StoredIn (f : NetFile) (c : SerConConfig) : Prop where
  style : c.configStyle = f.style.code
  dhcp : c.ethConfig.status = f.dhcp.code
  ipaddr : Stored c.ethConfig.netAddrConfig.ipaddr f.ipaddr.chars
  ipmaskaddr : Stored c.ethConfig.netAddrConfig.ipmaskaddr f.ipmaskaddr.chars
  ipgatwayaddr : Stored c.ethConfig.netAddrConfig.ipgatwayaddr f.ipgatwayaddr.chars
  wifiName : Stored c.wifiConfig.wifiName f.wifiName.chars
  wifiPassword : Stored c.wifiConfig.wifiPassword f.wifiPassword.chars

/-- The file, with whatever is behind it in the buffer, is taken over value by value. -/
def NetFile.Parsed (f : NetFile) (serNetConfig : ServerNetInformation) (rest : List Byte) : Prop :=
  ∃ c, handleSerNetConfigFile serNetConfig (f.content ++ rest) f.content.length =
      some (rtEok, { serNetConfig with netConfig := c }) ∧ f.StoredIn c

/-- No colon in the name, room for the zero in both name and password, at most twenty
    colons in the file. -/
structure NetFile.Plain (f : NetFile) : Prop where
  no_colon : usbDataMark1 ∉ f.wifiName.chars
  name : f.wifiName.chars.length < wifiNameMax - 1
  password : f.wifiPassword.chars.length < wifiNameMax - 1
  colons : f.wifiPassword.chars.count usbDataMark1 ≤ lineNumMax - 7

/-! ## The marks of a file -/

theorem Address.not_mem (a : Address) {ch : Byte}
    (h : ¬ ((0x30 ≤ ch ∧ ch ≤ 0x39) ∨ ch = 0x2E)) : ch ∉ a.chars :=
  fun hmem => h (a.dotted ch hmem)

namespace NetFile

variable (f : NetFile)

theorem content_eq (i : Fin 7) : f.content = f.linesBefore i ++ (f.line i ++ f.linesAfter i) := by
  have hsplit : ∀ i : Fin 7,
      List.finRange 7 = (List.finRange 7).take i ++ i :: (List.finRange 7).drop (i + 1) := by
    decide
  unfold content linesBefore linesAfter
  conv => lhs; rw [hsplit i, List.flatMap_append, List.flatMap_cons]

theorem value_free (i : Fin 7) : usbDataMark2 ∉ f.value i := by
  fin_cases i
  · show usbDataMark2 ∉ f.style.text
    cases f.style <;> decide
  · show usbDataMark2 ∉ f.dhcp.text
    cases f.dhcp <;> decide
  · exact f.ipaddr.not_mem (by decide)
  · exact f.ipmaskaddr.not_mem (by decide)
  · exact f.ipgatwayaddr.not_mem (by decide)
  · exact f.wifiName.free
  · exact f.wifiPassword.free

/-- There are colons in names and passwords only. -/
theorem value_no_colon {i : Fin 7} (hi : i < 5) : usbDataMark1 ∉ f.value i := by
  fin_cases i
  · show usbDataMark1 ∉ f.style.text
    cases f.style <;> decide
  · show usbDataMark1 ∉ f.dhcp.text
    cases f.dhcp <;> decide
  · exact f.ipaddr.not_mem (by decide)
  · exact f.ipmaskaddr.not_mem (by decide)
  · exact f.ipgatwayaddr.not_mem (by decide)
  · exact absurd hi (by decide)
  · exact absurd hi (by decide)

theorem count_line_mark2 (i : Fin 7) : (f.line i).count usbDataMark2 = 1 := by
  unfold line upTo
  rw [List.count_append, List.count_append, List.count_append,
    List.count_eq_zero.2 (f.keys i).free, List.count_eq_zero.2 (f.value_free i)]
  decide

theorem count_line_mark1 (i : Fin 7) :
    (f.line i).count usbDataMark1 = 1 + (f.value i).count usbDataMark1 := by
  unfold line upTo
  rw [List.count_append, List.count_append, List.count_append,
    List.count_eq_zero.2 (f.keys i).no_colon]
  show 0 + 1 + _ + 0 = _
  omega

theorem count_linesBefore_mark2 (i : Fin 7) : (f.linesBefore i).count usbDataMark2 = i := by
  unfold linesBefore
  rw [List.count_flatMap]
  have hone : List.count usbDataMark2 ∘ f.line = fun _ => 1 := by
    funext i
    exact f.count_line_mark2 i
  rw [hone]
  fin_cases i <;> rfl

theorem count_linesBefore_mark1 {i : Fin 7} (hi : ∀ j < i, usbDataMark1 ∉ f.value j) :
    (f.linesBefore i).count usbDataMark1 = i := by
  unfold linesBefore
  rw [List.count_flatMap]
  have hone : ((List.finRange 7).take i).map (List.count usbDataMark1 ∘ f.line) =
      ((List.finRange 7).take i).map fun _ => 1 := by
    apply List.map_congr_left
    intro j hj
    have hlt : j < i := by
      obtain ⟨k, hk, rfl⟩ := List.mem_take_iff_getElem.1 hj
      simp only [List.getElem_finRange, Fin.lt_def]
      simp at hk
      exact hk
    rw [Function.comp_apply, count_line_mark1, List.count_eq_zero.2 (hi j hlt)]
  rw [hone]
  fin_cases i <;> rfl

theorem count_content_mark2 : f.content.count usbDataMark2 = 7 := by
  rw [f.content_eq 6, List.count_append, count_linesBefore_mark2, List.count_append,
    count_line_mark2]
  rfl

theorem count_content_mark1 : f.content.count usbDataMark1 =
    7 + f.wifiName.chars.count usbDataMark1 + f.wifiPassword.chars.count usbDataMark1 := by
  have hname : f.linesBefore 6 = f.linesBefore 5 ++ f.line 5 := by
    unfold linesBefore
    show ([0, 1, 2, 3, 4, 5] : List (Fin 7)).flatMap f.line =
      ([0, 1, 2, 3, 4] : List (Fin 7)).flatMap f.line ++ f.line 5
    simp
  have hfive := f.count_linesBefore_mark1 (i := 5) fun j hj => f.value_no_colon hj
  rw [f.content_eq 6, List.count_append, hname, List.count_append, hfive, List.count_append,
    count_line_mark1, count_line_mark1]
  show 5 + (1 + f.wifiName.chars.count usbDataMark1) +
    (1 + f.wifiPassword.chars.count usbDataMark1 + 0) = _
  omega

end NetFile

/-! ## The loop -/

/-- A line between its two marks. -/
theorem handleLines_step {content a v t : List Byte} {i : ℕ}
    (hcontent : content = a ++ usbDataMark1 :: (v ++ usbDataMark2 :: t))
    (hk : a.count usbDataMark1 = i) (hj : (a ++ usbDataMark1 :: v).count usbDataMark2 = i)
    (hsize : content.length < 2 ^ 31) (rest config : List Byte) (lines : List ℕ) :
    handleLines (content ++ rest) (places usbDataMark1 content) (places usbDataMark2 content) config
        (i :: lines) =
      if lineDataLenMax < v.length + 1 then (BitVec.ofNat 32 (v.length + 1), config)
      else
        match handleLine config (v ++ [usbDataMark2]) i with
        | none => (rtError, config)
        | some config => handleLines (content ++ rest) (places usbDataMark1 content)
            (places usbDataMark2 content) config lines := by
  have hcolon : (places usbDataMark1 content).getD i 0 = a.length := by
    rw [hcontent, ← hk, getD_places]
  have hend : (places usbDataMark2 content).getD i 0 = a.length + (v.length + 1) := by
    have hcontent' : content = (a ++ usbDataMark1 :: v) ++ usbDataMark2 :: t := by
      rw [hcontent, List.append_assoc]
      rfl
    rw [hcontent', ← hj, getD_places]
    simp
  have hlt : a.length + (v.length + 1) < 2 ^ 31 := by
    rw [hcontent] at hsize
    simp at hsize
    omega
  have hlen : BitVec.ofNat 32 (a.length + (v.length + 1)) - BitVec.ofNat 32 a.length =
      BitVec.ofNat 32 (v.length + 1) := by
    rw [Nat.add_comm, BitVec.ofNat_add, BitVec.add_sub_cancel]
  have hnat : (BitVec.ofNat 32 (v.length + 1)).toNat = v.length + 1 := by
    rw [BitVec.toNat_ofNat]
    exact Nat.mod_eq_of_lt (by omega)
  have hdata : readN ((content ++ rest).drop (a.length + 1)) (v.length + 1) =
      v ++ [usbDataMark2] := by
    have hdrop : (content ++ rest).drop (a.length + 1) = (v ++ [usbDataMark2]) ++ (t ++ rest) := by
      rw [hcontent]
      simp [List.drop_append]
    rw [hdrop, readN_of_le (by simp)]
    have htake : (v ++ [usbDataMark2]).length = v.length + 1 := by simp
    rw [← htake, List.take_left]
  rw [handleLines]
  by_cases hlong : lineDataLenMax < v.length + 1
  · simp only [hcolon, hend, hlen, hnat, if_pos hlong]
  · cases hline : handleLine config (v ++ [usbDataMark2]) i with
    | none => simp only [hcolon, hend, hlen, hnat, hdata, if_neg hlong, hline]
    | some config' => simp only [hcolon, hend, hlen, hnat, hdata, if_neg hlong, hline]

theorem handleLine_style (c : SerConConfig) (v : StyleValue) :
    handleLine (serConConfigLayout.encode c) (v.text ++ [usbDataMark2]) 0 =
      some (serConConfigLayout.encode { c with configStyle := v.code }) := by
  rw [handleLine]
  cases v with
  | wifi =>
    rw [if_pos (by decide), copyTo_configStyle]
    rfl
  | ethOrWifi =>
    rw [if_neg (by decide), if_pos (by decide), copyTo_configStyle]
    rfl
  | eth =>
    rw [if_neg (by decide), if_neg (by decide), if_pos (by decide), copyTo_configStyle]
    rfl

theorem handleLine_dhcp (c : SerConConfig) (v : DhcpValue) :
    handleLine (serConConfigLayout.encode c) (v.text ++ [usbDataMark2]) 1 =
      some (serConConfigLayout.encode { c with ethConfig.status := v.code }) := by
  rw [handleLine]
  cases v with
  | opened =>
    rw [if_pos (by decide), copyTo_status]
    rfl
  | closed =>
    rw [if_neg (by decide), if_pos (by decide), copyTo_status]
    rfl

theorem length_address (a : Address) : (a.chars ++ [usbDataMark2]).length ≤ 16 := by
  have := a.length_le
  simp
  omega

/-- What a name or a password of the text `w` leaves in its field. -/
def nameBytes (w : List Byte) : List Byte :=
  w ++ [if w.length + 1 < wifiNameMax then 0 else usbDataMark2]

theorem length_nameBytes (w : List Byte) : (nameBytes w).length = w.length + 1 := by
  simp [nameBytes]

/-- A text for a field of which `copyTo` is known. -/
theorem copyName_field {c c' : SerConConfig} {off : ℕ} (hoff : off ≤ 104) {w : List Byte}
    (h : copyTo (serConConfigLayout.encode c) off (nameBytes w) = serConConfigLayout.encode c') :
    copyName (serConConfigLayout.encode c) off (w ++ [usbDataMark2]) =
      serConConfigLayout.encode c' := by
  rw [copyName_eq (by rw [serConConfigLayout.length_encode]; exact hoff)]
  exact h

theorem handleLine_name (c : SerConConfig) {w : List Byte} (h : w.length + 1 ≤ 24) :
    handleLine (serConConfigLayout.encode c) (w ++ [usbDataMark2]) 5 =
      some (serConConfigLayout.encode
        { c with wifiConfig.wifiName := c.wifiConfig.wifiName.copy (nameBytes w) }) :=
  congrArg some (copyName_field (by decide) (copyTo_wifiName c (by rwa [length_nameBytes])))

theorem handleLine_password (c : SerConConfig) {w : List Byte} (h : w.length + 1 ≤ 24) :
    handleLine (serConConfigLayout.encode c) (w ++ [usbDataMark2]) 6 =
      some (serConConfigLayout.encode
        { c with wifiConfig.wifiPassword := c.wifiConfig.wifiPassword.copy (nameBytes w) }) :=
  congrArg some (copyName_field (by decide) (copyTo_wifiPassword c (by rwa [length_nameBytes])))

namespace NetFile

variable (f : NetFile)

/-- The configuration after the first six lines. -/
def afterName (c : SerConConfig) : SerConConfig where
  configStyle := f.style.code
  ethConfig :=
    { status := f.dhcp.code
      netAddrConfig :=
        { ipaddr := c.ethConfig.netAddrConfig.ipaddr.copy (f.ipaddr.chars ++ [usbDataMark2])
          ipmaskaddr :=
            c.ethConfig.netAddrConfig.ipmaskaddr.copy (f.ipmaskaddr.chars ++ [usbDataMark2])
          ipgatwayaddr :=
            c.ethConfig.netAddrConfig.ipgatwayaddr.copy (f.ipgatwayaddr.chars ++ [usbDataMark2]) } }
  wifiConfig :=
    { c.wifiConfig with wifiName := c.wifiConfig.wifiName.copy (nameBytes f.wifiName.chars) }

/-- The configuration that is returned when `password` is taken for the password. -/
def result (c : SerConConfig) (password : List Byte) : SerConConfig where
  configStyle := f.style.code
  ethConfig :=
    { status := f.dhcp.code
      netAddrConfig :=
        { ipaddr :=
            (c.ethConfig.netAddrConfig.ipaddr.copy (f.ipaddr.chars ++ [usbDataMark2])).clear
          ipmaskaddr :=
            (c.ethConfig.netAddrConfig.ipmaskaddr.copy (f.ipmaskaddr.chars ++ [usbDataMark2])).clear
          ipgatwayaddr :=
            (c.ethConfig.netAddrConfig.ipgatwayaddr.copy
              (f.ipgatwayaddr.chars ++ [usbDataMark2])).clear } }
  wifiConfig :=
    { wifiName := c.wifiConfig.wifiName.copy (nameBytes f.wifiName.chars)
      wifiPassword := c.wifiConfig.wifiPassword.copy (nameBytes password) }

/-- The loop on line `i`, if the lines in front of it have no further colons. -/
theorem handleLines_line {i : Fin 7} (hi : ∀ j < i, usbDataMark1 ∉ f.value j)
    (hsize : f.content.length < 2 ^ 31) (hlen : (f.value i).length + 1 ≤ lineDataLenMax)
    (rest config : List Byte) {config' : List Byte}
    (hline : handleLine config (f.value i ++ [usbDataMark2]) i = some config') (lines : List ℕ) :
    handleLines (f.content ++ rest) (places usbDataMark1 f.content) (places usbDataMark2 f.content)
        config (i :: lines) =
      handleLines (f.content ++ rest) (places usbDataMark1 f.content)
        (places usbDataMark2 f.content) config' lines := by
  have hcontent : f.content = (f.linesBefore i ++ (f.keys i).chars) ++
      usbDataMark1 :: (f.value i ++ usbDataMark2 :: (0x0A :: f.linesAfter i)) := by
    rw [f.content_eq i, line, upTo]
    simp [List.append_assoc]
  have hk : (f.linesBefore i ++ (f.keys i).chars).count usbDataMark1 = i := by
    rw [List.count_append, f.count_linesBefore_mark1 hi, List.count_eq_zero.2 (f.keys i).no_colon]
    rfl
  have hj : (f.linesBefore i ++ (f.keys i).chars ++ usbDataMark1 :: f.value i).count usbDataMark2 =
      i := by
    rw [List.count_append, List.count_append, f.count_linesBefore_mark2,
      List.count_eq_zero.2 (f.keys i).free, List.count_cons,
      List.count_eq_zero.2 (f.value_free i)]
    rfl
  rw [handleLines_step hcontent hk hj hsize, if_neg (Nat.not_lt.2 hlen), hline]

/-- The first six lines are read as they stand in the file. -/
theorem handleLines_six (hsize : f.content.length < 2 ^ 31) (rest : List Byte) (c : SerConConfig)
    (lines : List ℕ) :
    handleLines (f.content ++ rest) (places usbDataMark1 f.content) (places usbDataMark2 f.content)
        (serConConfigLayout.encode c) (0 :: 1 :: 2 :: 3 :: 4 :: 5 :: lines) =
      handleLines (f.content ++ rest) (places usbDataMark1 f.content)
        (places usbDataMark2 f.content) (serConConfigLayout.encode (f.afterName c)) lines := by
  have hfew {i : Fin 7} (hi : i ≤ 5) : ∀ j < i, usbDataMark1 ∉ f.value j :=
    fun j hj => f.value_no_colon (Nat.lt_of_lt_of_le hj hi)
  have haddr (a : Address) : a.chars.length + 1 ≤ lineDataLenMax := by
    have := a.length_le
    unfold lineDataLenMax
    omega
  have hname := f.wifiName.length_le
  have h24 : wifiNameMax = 24 := rfl
  have hstyle : f.style.text.length + 1 ≤ lineDataLenMax := by cases f.style <;> decide
  have hdhcp : f.dhcp.text.length + 1 ≤ lineDataLenMax := by cases f.dhcp <;> decide
  have h0 := f.handleLines_line (i := 0) (hfew (by decide)) hsize hstyle rest _
    (handleLine_style c f.style)
  have h1 := f.handleLines_line (i := 1) (hfew (by decide)) hsize hdhcp rest _
    (handleLine_dhcp { c with configStyle := f.style.code } f.dhcp)
  refine (h0 _).trans ((h1 _).trans ?_)
  set c2 : SerConConfig :=
    { c with configStyle := f.style.code, ethConfig.status := f.dhcp.code }
  have h2 := f.handleLines_line (i := 2) (hfew (by decide)) hsize (haddr f.ipaddr) rest
    (serConConfigLayout.encode c2)
    (congrArg some (copyTo_ipaddr c2 (length_address f.ipaddr)))
  refine (h2 _).trans ?_
  set c3 : SerConConfig := { c2 with ethConfig.netAddrConfig.ipaddr :=
    c2.ethConfig.netAddrConfig.ipaddr.copy (f.ipaddr.chars ++ [usbDataMark2]) }
  have h3 := f.handleLines_line (i := 3) (hfew (by decide)) hsize (haddr f.ipmaskaddr) rest
    (serConConfigLayout.encode c3)
    (congrArg some (copyTo_ipmaskaddr c3 (length_address f.ipmaskaddr)))
  refine (h3 _).trans ?_
  set c4 : SerConConfig := { c3 with ethConfig.netAddrConfig.ipmaskaddr :=
    c3.ethConfig.netAddrConfig.ipmaskaddr.copy (f.ipmaskaddr.chars ++ [usbDataMark2]) }
  have h4 := f.handleLines_line (i := 4) (hfew (by decide)) hsize (haddr f.ipgatwayaddr) rest
    (serConConfigLayout.encode c4)
    (congrArg some (copyTo_ipgatwayaddr c4 (length_address f.ipgatwayaddr)))
  refine (h4 _).trans ?_
  set c5 : SerConConfig := { c4 with ethConfig.netAddrConfig.ipgatwayaddr :=
    c4.ethConfig.netAddrConfig.ipgatwayaddr.copy (f.ipgatwayaddr.chars ++ [usbDataMark2]) }
  have h5 := f.handleLines_line (i := 5) (hfew (by decide)) hsize
    (by show f.wifiName.chars.length + 1 ≤ 24; omega) rest (serConConfigLayout.encode c5)
    (handleLine_name c5 (w := f.wifiName.chars) (by omega))
  exact h5 lines

/-- What is behind the first colon of the name, up to the end of the password. -/
def passwordText (tail : List Byte) : List Byte :=
  tail ++ usbDataMark2 :: 0x0A :: ((f.keys 6).chars ++ usbDataMark1 :: f.wifiPassword.chars)

/-- The last line, if the name has no colon. -/
theorem handleLines_seven (hsize : f.content.length < 2 ^ 31)
    (hname : usbDataMark1 ∉ f.wifiName.chars) (rest : List Byte) (c : SerConConfig) :
    handleLines (f.content ++ rest) (places usbDataMark1 f.content) (places usbDataMark2 f.content)
        (serConConfigLayout.encode c) [6] =
      (rtEok, serConConfigLayout.encode
        { c with
          wifiConfig.wifiPassword :=
            c.wifiConfig.wifiPassword.copy (nameBytes f.wifiPassword.chars) }) := by
  have hpassword := f.wifiPassword.length_le
  have h24 : wifiNameMax = 24 := rfl
  have hfew : ∀ j < (6 : Fin 7), usbDataMark1 ∉ f.value j := by
    intro j hj
    by_cases h5 : j < 5
    · exact f.value_no_colon h5
    · obtain rfl : j = 5 := by omega
      exact hname
  exact f.handleLines_line (i := 6) hfew hsize
    (by show f.wifiPassword.chars.length + 1 ≤ 24; omega) rest (serConConfigLayout.encode c)
    (handleLine_password c (w := f.wifiPassword.chars) (by omega)) []

/-- A file whose name has a colon, split there. -/
theorem content_of_colon {front tail : List Byte}
    (hname : f.wifiName.chars = front ++ usbDataMark1 :: tail) :
    f.content = (f.linesBefore 5 ++ ((f.keys 5).chars ++ usbDataMark1 :: front)) ++
      usbDataMark1 :: (f.passwordText tail ++ usbDataMark2 :: [0x0A]) := by
  have hafter : f.linesAfter 5 = f.line 6 := by
    show ([6] : List (Fin 7)).flatMap f.line = _
    simp
  have h5 : f.value 5 = front ++ usbDataMark1 :: tail := hname
  have h6 : f.value 6 = f.wifiPassword.chars := rfl
  rw [f.content_eq 5, hafter, line, line, upTo, upTo, h5, h6, passwordText]
  simp [List.append_assoc]

/-- The last line, if the name has a colon: it starts there. -/
theorem handleLines_colon (hsize : f.content.length < 2 ^ 31) {front tail : List Byte}
    (hname : f.wifiName.chars = front ++ usbDataMark1 :: tail) (hfront : usbDataMark1 ∉ front)
    (rest : List Byte) (c : SerConConfig) :
    handleLines (f.content ++ rest) (places usbDataMark1 f.content) (places usbDataMark2 f.content)
        (serConConfigLayout.encode c) [6] =
      if lineDataLenMax < (f.passwordText tail).length + 1 then
        (BitVec.ofNat 32 ((f.passwordText tail).length + 1), serConConfigLayout.encode c)
      else
        (rtEok, serConConfigLayout.encode
          { c with
            wifiConfig.wifiPassword :=
              c.wifiConfig.wifiPassword.copy (nameBytes (f.passwordText tail)) }) := by
  have hfree := f.wifiName.free
  rw [hname] at hfree
  have hk : (f.linesBefore 5 ++ ((f.keys 5).chars ++ usbDataMark1 :: front)).count usbDataMark1 =
      6 := by
    rw [List.count_append, f.count_linesBefore_mark1 fun j hj => f.value_no_colon hj,
      List.count_append, List.count_eq_zero.2 (f.keys 5).no_colon, List.count_cons_self,
      List.count_eq_zero.2 hfront]
    rfl
  have hj : (f.linesBefore 5 ++ ((f.keys 5).chars ++ usbDataMark1 :: front) ++
      usbDataMark1 :: f.passwordText tail).count usbDataMark2 = 6 := by
    have hone : usbDataMark1 ≠ usbDataMark2 := by decide
    have hlf : (0x0A : Byte) ≠ usbDataMark2 := by decide
    have hfront' : usbDataMark2 ∉ front := fun h => hfree (List.mem_append_left _ h)
    have htail : usbDataMark2 ∉ tail :=
      fun h => hfree (List.mem_append_right _ (List.mem_cons_of_mem _ h))
    rw [passwordText, List.count_append, List.count_append, List.count_append,
      f.count_linesBefore_mark2, List.count_eq_zero.2 (f.keys 5).free, List.count_cons_of_ne hone,
      List.count_eq_zero.2 hfront', List.count_cons_of_ne hone, List.count_append,
      List.count_eq_zero.2 htail, List.count_cons_self, List.count_cons_of_ne hlf,
      List.count_append, List.count_eq_zero.2 (f.keys 6).free, List.count_cons_of_ne hone,
      List.count_eq_zero.2 f.wifiPassword.free]
    rfl
  rw [handleLines_step (f.content_of_colon hname) hk hj hsize]
  by_cases hlong : lineDataLenMax < (f.passwordText tail).length + 1
  · rw [if_pos hlong, if_pos hlong]
  · rw [if_neg hlong, if_neg hlong, handleLine_password c (Nat.le_of_not_lt hlong)]
    rfl

end NetFile

/-! ## What is stored -/

theorem take_ofFn_copy {n : ℕ} (f : Chars n) {bs : List Byte} (h : bs.length ≤ n) {k : ℕ}
    (hk : k ≤ bs.length) : (List.ofFn (f.copy bs)).take k = bs.take k := by
  rw [ofFn_copy f h, List.take_append_of_le_length hk]

/-- An address with its carriage return, cleaned. -/
theorem stored_address (f : Chars 16) (a : Address) :
    Stored (f.copy (a.chars ++ [usbDataMark2])).clear a.chars := by
  have hlen : (a.chars ++ [usbDataMark2]).length = a.chars.length + 1 := by simp
  have hkeep : clearStrInfo a.chars = a.chars := by
    unfold clearStrInfo
    conv => rhs; rw [← List.map_id a.chars]
    apply List.map_congr_left
    intro c hc
    rw [if_neg]
    · rfl
    · rintro ⟨hout, hdot⟩
      rcases a.dotted c hc with ⟨h1, h2⟩ | h
      · rcases hout with h | h
        · exact absurd h1 (BitVec.not_le.2 h)
        · exact absurd h2 (BitVec.not_le.2 h)
      · exact hdot h
  unfold Stored
  rw [ofFn_clear, clearStrInfo, ← List.map_take, take_ofFn_copy f (length_address a) hlen.ge,
    ← hlen, List.take_length, List.map_append]
  show clearStrInfo a.chars ++ [0] = _
  rw [hkeep]

/-- A text that leaves room for the zero. -/
theorem stored_name (f : Chars 24) {w : List Byte} (h : w.length + 1 < wifiNameMax) :
    Stored (f.copy (nameBytes w)) w := by
  have h24 : wifiNameMax = 24 := rfl
  unfold Stored
  rw [take_ofFn_copy f (by rw [length_nameBytes]; omega) (length_nameBytes w).ge,
    ← length_nameBytes, List.take_length, nameBytes, if_pos h]

/-- A text that fills its field is not terminated. -/
theorem not_stored_full (f : Chars 24) {w : List Byte} (h : w.length + 1 = wifiNameMax) :
    ¬ Stored (f.copy (nameBytes w)) w := by
  have h24 : wifiNameMax = 24 := rfl
  unfold Stored
  rw [take_ofFn_copy f (by rw [length_nameBytes]; omega) (length_nameBytes w).ge,
    ← length_nameBytes, List.take_length, nameBytes, if_neg (by omega)]
  intro heq
  have := List.append_cancel_left heq
  exact absurd this (by decide)

namespace NetFile

variable (f : NetFile)

/-- What is taken for the password behind a colon of the name is not the password. -/
theorem not_stored_passwordText (p : Chars 24) {tail : List Byte} (h0 : 0 ∉ tail)
    (h : (f.passwordText tail).length + 1 ≤ 24) :
    ¬ Stored (p.copy (nameBytes (f.passwordText tail))) f.wifiPassword.chars := by
  have hlen : f.wifiPassword.chars.length + 1 ≤ (f.passwordText tail).length := by
    simp [passwordText]
    omega
  unfold Stored
  rw [take_ofFn_copy p (by rw [length_nameBytes]; exact h) (by rw [length_nameBytes]; omega),
    nameBytes, List.take_append_of_le_length hlen, passwordText]
  intro heq
  by_cases hshort : tail.length < f.wifiPassword.chars.length + 1
  · -- The carriage return of the name is among the bytes that are compared.
    have hmem : usbDataMark2 ∈ f.wifiPassword.chars ++ [0] := by
      rw [← heq, List.take_append, List.mem_append]
      obtain ⟨m, hm⟩ : ∃ m, f.wifiPassword.chars.length + 1 - tail.length = m + 1 :=
        ⟨f.wifiPassword.chars.length - tail.length, by omega⟩
      rw [hm, List.take_succ_cons]
      exact Or.inr List.mem_cons_self
    rcases List.mem_append.1 hmem with hmem | hmem
    · exact f.wifiPassword.free hmem
    · exact absurd (List.mem_singleton.1 hmem) (by decide)
  · rw [List.take_append_of_le_length (by omega)] at heq
    have hzero : (0 : Byte) ∈ f.wifiPassword.chars ++ [0] :=
      List.mem_append_right _ (List.mem_singleton.2 rfl)
    rw [← heq] at hzero
    exact h0 (List.mem_of_mem_take hzero)

/-- The whole parse, up to the last line. -/
theorem handleSerNetConfigFile_eq (hsize : f.content.length < 2 ^ 31)
    (serNetConfig : ServerNetInformation) (rest : List Byte) :
    handleSerNetConfigFile serNetConfig (f.content ++ rest) f.content.length =
      if lineNumMax < f.content.count usbDataMark1 then none
      else
        let (ret, config) := handleLines (f.content ++ rest) (places usbDataMark1 f.content)
          (places usbDataMark2 f.content)
          (serConConfigLayout.encode (f.afterName serNetConfig.netConfig)) [6]
        let config := if ret = rtEok then clearAddrs config else config
        some (ret, { serNetConfig with netConfig := serConConfigLayout.decode config }) := by
  have hj : (places usbDataMark2 f.content).length = 7 := by
    rw [length_places, count_content_mark2]
  have hk : (places usbDataMark1 f.content).length = f.content.count usbDataMark1 :=
    length_places ..
  have hj0 : places usbDataMark2 f.content ≠ [] := by
    intro h
    rw [h] at hj
    cases hj
  have hk0 : places usbDataMark1 f.content ≠ [] := by
    intro h
    rw [h, count_content_mark1] at hk
    simp at hk
    omega
  have hmax : ¬ lineNumMax < (places usbDataMark2 f.content).length := by
    rw [hj]
    decide
  have hsix := f.handleLines_six hsize rest serNetConfig.netConfig [6]
  unfold handleSerNetConfigFile
  simp only [searchCharacter_eq_places]
  rw [if_neg hmax, if_neg hj0, hk]
  by_cases hmany : lineNumMax < f.content.count usbDataMark1
  · rw [if_pos hmany, if_pos hmany]
  · rw [if_neg hmany, if_neg hmany, if_neg hk0]
    have hrange : List.range 7 = [0, 1, 2, 3, 4, 5, 6] := rfl
    rw [hrange, hsix]

/-- The parse of a file whose name has no colon. -/
theorem handleSerNetConfigFile_plain (hsize : f.content.length < 2 ^ 31)
    (hmany : ¬ lineNumMax < f.content.count usbDataMark1) (hname : usbDataMark1 ∉ f.wifiName.chars)
    (serNetConfig : ServerNetInformation) (rest : List Byte) :
    handleSerNetConfigFile serNetConfig (f.content ++ rest) f.content.length =
      some (rtEok, { serNetConfig with
        netConfig := f.result serNetConfig.netConfig f.wifiPassword.chars }) := by
  rw [f.handleSerNetConfigFile_eq hsize, if_neg hmany, f.handleLines_seven hsize hname]
  simp only [if_true, clearAddrs_encode, serConConfigLayout.decode_encode]
  rfl

/-- The parse of a file whose name has a colon, if it is accepted. -/
theorem result_of_colon (hsize : f.content.length < 2 ^ 31) {front tail : List Byte}
    (hname : f.wifiName.chars = front ++ usbDataMark1 :: tail) (hfront : usbDataMark1 ∉ front)
    {serNetConfig : ServerNetInformation} {rest : List Byte} {c : SerConConfig}
    (h : handleSerNetConfigFile serNetConfig (f.content ++ rest) f.content.length =
      some (rtEok, { serNetConfig with netConfig := c })) :
    (f.passwordText tail).length + 1 ≤ lineDataLenMax ∧
      c = f.result serNetConfig.netConfig (f.passwordText tail) := by
  have hlen : (f.passwordText tail).length < f.content.length := by
    rw [f.content_of_colon hname]
    simp
    omega
  rw [f.handleSerNetConfigFile_eq hsize] at h
  by_cases hmany : lineNumMax < f.content.count usbDataMark1
  · rw [if_pos hmany] at h
    cases h
  · rw [if_neg hmany, f.handleLines_colon hsize hname hfront] at h
    by_cases hlong : lineDataLenMax < (f.passwordText tail).length + 1
    · rw [if_pos hlong] at h
      have hret : BitVec.ofNat 32 ((f.passwordText tail).length + 1) = 0 :=
        congrArg Prod.fst (Option.some.inj h)
      have hnat := congrArg BitVec.toNat hret
      rw [BitVec.toNat_ofNat, Nat.mod_eq_of_lt (by omega)] at hnat
      exact absurd hnat (by simp)
    · rw [if_neg hlong] at h
      simp only [if_true, clearAddrs_encode, serConConfigLayout.decode_encode] at h
      have hc := congrArg (fun r => r.2.netConfig) (Option.some.inj h)
      exact ⟨Nat.le_of_not_lt hlong, hc.symm⟩

/-- A plain file is taken over. -/
theorem parsed_of_plain (h : f.Plain) (hsize : f.content.length < 2 ^ 31)
    (serNetConfig : ServerNetInformation) (rest : List Byte) : f.Parsed serNetConfig rest := by
  have hcolons : ¬ lineNumMax < f.content.count usbDataMark1 := by
    have := h.colons
    rw [count_content_mark1, List.count_eq_zero.2 h.no_colon]
    unfold lineNumMax at *
    omega
  have hname := h.name
  have hpassword := h.password
  exact ⟨f.result serNetConfig.netConfig f.wifiPassword.chars,
    f.handleSerNetConfigFile_plain hsize hcolons h.no_colon serNetConfig rest,
    { style := rfl
      dhcp := rfl
      ipaddr := stored_address _ f.ipaddr
      ipmaskaddr := stored_address _ f.ipmaskaddr
      ipgatwayaddr := stored_address _ f.ipgatwayaddr
      wifiName := stored_name _ (by omega)
      wifiPassword := stored_name _ (by omega) }⟩

/-- A file that is taken over is plain, if there is no zero in its name. -/
theorem plain_of_parsed (h0 : 0 ∉ f.wifiName.chars) (hsize : f.content.length < 2 ^ 31)
    {serNetConfig : ServerNetInformation} {rest : List Byte} (h : f.Parsed serNetConfig rest) :
    f.Plain := by
  have hmaxName := f.wifiName.length_le
  have hmaxPassword := f.wifiPassword.length_le
  have h24 : wifiNameMax = 24 := rfl
  obtain ⟨c, hres, hstored⟩ := h
  have hno : usbDataMark1 ∉ f.wifiName.chars := by
    intro hcolon
    obtain ⟨front, tail, hname, hfront⟩ := List.eq_append_cons_of_mem hcolon
    obtain ⟨hshort, rfl⟩ := f.result_of_colon hsize hname hfront hres
    have h0tail : 0 ∉ tail := fun h =>
      h0 (hname ▸ List.mem_append_right _ (List.mem_cons_of_mem _ h))
    exact f.not_stored_passwordText _ h0tail hshort hstored.wifiPassword
  have hmany : ¬ lineNumMax < f.content.count usbDataMark1 := by
    intro hmany
    rw [f.handleSerNetConfigFile_eq hsize, if_pos hmany] at hres
    cases hres
  rw [f.handleSerNetConfigFile_plain hsize hmany hno] at hres
  obtain rfl : f.result serNetConfig.netConfig f.wifiPassword.chars = c :=
    congrArg (fun r => r.2.netConfig) (Option.some.inj hres)
  refine ⟨hno, ?_, ?_, ?_⟩
  · by_contra hfull
    exact not_stored_full _ (w := f.wifiName.chars) (by omega) hstored.wifiName
  · by_contra hfull
    exact not_stored_full _ (w := f.wifiPassword.chars) (by omega) hstored.wifiPassword
  · rw [count_content_mark1] at hmany
    unfold lineNumMax at *
    omega

end NetFile

/-- A file is taken over value by value if it is plain, and only then if there is no
    zero in its name. -/
theorem netFile_iff (f : NetFile) (serNetConfig : ServerNetInformation) (rest : List Byte)
    (hsize : f.content.length < 2 ^ 31) :
    (f.Plain → f.Parsed serNetConfig rest) ∧
      (0 ∉ f.wifiName.chars → (f.Parsed serNetConfig rest ↔ f.Plain)) :=
  ⟨fun h => f.parsed_of_plain h hsize serNetConfig rest, fun h0 =>
    ⟨f.plain_of_parsed h0 hsize, fun h => f.parsed_of_plain h hsize serNetConfig rest⟩⟩

/-- Empty keys, `eth`, `open`, three addresses `1`, the given name and the password `a`. -/
def sampleFile (name : Name) : NetFile where
  keys := fun _ => ⟨[], by decide, by decide⟩
  style := .eth
  dhcp := .opened
  ipaddr := ⟨[0x31], by decide, by decide⟩
  ipmaskaddr := ⟨[0x31], by decide, by decide⟩
  ipgatwayaddr := ⟨[0x31], by decide, by decide⟩
  wifiName := name
  wifiPassword := ⟨[0x61], by decide, by decide⟩

theorem netFile_iff_short :
    (sampleFile ⟨[0x6E], by decide, by decide⟩).content.length < 2 ^ 31 ∧
      (sampleFile ⟨[0x6E], by decide, by decide⟩).Parsed ServerNetInformation.zero [] :=
  ⟨by decide, (netFile_iff (sampleFile ⟨[0x6E], by decide, by decide⟩) ServerNetInformation.zero []
    (by decide)).1 ⟨by decide, by decide, by decide, by decide⟩⟩

/-- A name of 23 characters keeps its carriage return instead of a zero; behind a name
    with a colon the password is not found. -/
theorem netFile_full_name :
    ¬ (sampleFile ⟨List.replicate 23 0x6E, by decide, by decide⟩).Parsed
        ServerNetInformation.zero [] ∧
      ¬ (sampleFile ⟨[0x6E, 0x3A], by decide, by decide⟩).Parsed ServerNetInformation.zero [] := by
  constructor
  · intro h
    exact absurd ((sampleFile _).plain_of_parsed (by decide) (by decide) h).name (by decide)
  · intro h
    exact absurd ((sampleFile _).plain_of_parsed (by decide) (by decide) h).no_colon (by decide)

end Abox.Config
