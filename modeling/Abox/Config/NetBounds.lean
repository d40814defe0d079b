import Abox.Config.NetFile

/-!
# What a network file is written over

`searchCharacter` stores every mark it finds, and the seven values are copied to
their fields with the length of the line (`drv_usbh.c` lines 50–179). Here every
write is checked against the size of what it goes to, and the first one outside
ends the run.

* `handleSerNetConfigFile_of_checked`: a run with all its writes inside is the run
  of `handleSerNetConfigFile`.
* `writes_inside_iff`: all writes are inside iff there are at most twenty carriage
  returns and, behind one of them, at most twenty `':'`, and every line that is
  reached fits: an address has at most 16 bytes, a name or a password at least one.
* `writes_outside`: a file for each way to write outside.
-/

namespace Abox.Config

/-! ## Checked writes -/

/-- What is written to: `k`, `j` and `lineData`, and the fields of `netConfig`. -/
inductive Target
  | k
  | j
  | lineData
  | ipaddr
  | ipmaskaddr
  | ipgatwayaddr
  | wifiName
  | wifiPassword
  deriving DecidableEq, Repr

/-- The number of elements (`drv_usbh.c` lines 87–89, `net_config.h` lines 136–157). -/
def Target.size : Target → ℕ
  | .k | .j => lineNumMax
  | .lineData => lineDataLenMax
  | .ipaddr | .ipmaskaddr | .ipgatwayaddr => 16
  | .wifiName | .wifiPassword => wifiNameMax

/-- A write of `n` elements from index `i` on. The error is what is overrun. -/
def write (t : Target) (i : ℤ) (n : ℕ) : Except Target Unit :=
  if 0 ≤ i ∧ i + n ≤ t.size then .ok () else .error t

/-- `searchCharacter` from the places `is` on, with the `sbuf` filled so far. -/
def searchInto (t : Target) (cbuf : List Byte) (ch : Byte) :
    List ℕ → List ℕ → Except Target (List ℕ)
  | [], sbuf => .ok sbuf
  | i :: is, sbuf =>
    if cbuf.getD i 0 = ch then do
      write t sbuf.length 1
      searchInto t cbuf ch is (sbuf ++ [i])
    else searchInto t cbuf ch is sbuf

def searchCharacterChecked (t : Target) (cbuf : List Byte) (bsize : ℤ) (ch : Byte) :
    Except Target (List ℕ) := searchInto t cbuf ch (List.range bsize.toNat) []

/-- A name or a password (lines 156–166). -/
def writeName (t : Target) (value : List Byte) : Except Target Unit := do
  write t 0 value.length
  if value.length < wifiNameMax then write t (value.length - 1) 1

/-- What one pass of the loop writes to the fields (lines 144–166). -/
def writeLine (value : List Byte) : ℕ → Except Target Unit
  | 2 => write .ipaddr 0 value.length
  | 3 => write .ipmaskaddr 0 value.length
  | 4 => write .ipgatwayaddr 0 value.length
  | 5 => writeName .wifiName value
  | 6 => writeName .wifiPassword value
  | _ => .ok ()

/-- `handleLines` with the check of each write. -/
def handleLinesChecked (fileBuf : List Byte) (k j : List ℕ) (config : List Byte) :
    List ℕ → Except Target (BitVec 32 × List Byte)
  | [] => .ok (rtEok, config)
  | lineIndex :: lines => do
    write .lineData 0 lineDataLenMax
    let colon := k.getD lineIndex 0
    let lineLen : BitVec 32 := BitVec.ofNat 32 (j.getD lineIndex 0) - BitVec.ofNat 32 colon
    if lineDataLenMax < lineLen.toNat then return (lineLen, config)
    write .lineData 0 lineLen.toNat
    let value := readN (fileBuf.drop (colon + 1)) lineLen.toNat
    writeLine value lineIndex
    match handleLine config value lineIndex with
    | none => return (rtError, config)
    | some config => handleLinesChecked fileBuf k j config lines

/-- `clearAddrs` with the check of each write. -/
def clearAddrsChecked (config : List Byte) : Except Target (List Byte) := do
  write .ipaddr 0 16
  write .ipmaskaddr 0 16
  write .ipgatwayaddr 0 16
  return clearAddrs config

/-- `handleSerNetConfigFile` with the check of each write. -/
def handleSerNetConfigFileChecked (serNetConfig : ServerNetInformation) (fileBuf : List Byte)
    (fileSize : ℤ) : Except Target (BitVec 32 × ServerNetInformation) := do
  let j ← searchCharacterChecked .j fileBuf fileSize usbDataMark2
  if j = [] then return (rtError, serNetConfig)
  let k ← searchCharacterChecked .k fileBuf fileSize usbDataMark1
  if k = [] then return (rtError, serNetConfig)
  let (ret, config) ←
    handleLinesChecked fileBuf k j (serConConfigLayout.encode serNetConfig.netConfig)
      (List.range 7)
  if ret = rtEok then
    let config ← clearAddrsChecked config
    return (ret, { serNetConfig with netConfig := serConConfigLayout.decode config })
  else return (ret, { serNetConfig with netConfig := serConConfigLayout.decode config })

/-! ## Which files are safe -/

/-- Line `i` ends at most `lineDataLenMax` bytes behind its colon, and not in front
    of it. A mark that is missing is at place 0. -/
def ShortLine (k j : List ℕ) (i : ℕ) : Prop :=
  k.getD i 0 ≤ j.getD i 0 ∧ j.getD i 0 ≤ k.getD i 0 + lineDataLenMax

/-- The value of line `i`. -/
def lineValue (fileBuf : List Byte) (k j : List ℕ) (i : ℕ) : List Byte :=
  readN (fileBuf.drop (k.getD i 0 + 1)) (j.getD i 0 - k.getD i 0)

/-- The value is one that the line can have. -/
def Recognised (value : List Byte) : ℕ → Prop
  | 0 => rt_strncmp wifiText value 4 = 0 ∨ rt_strncmp ethOrWifiText value 11 = 0 ∨
      rt_strncmp ethText value 3 = 0
  | 1 => rt_strncmp openText value 4 = 0 ∨ rt_strncmp closeText value 5 = 0
  | _ => True

/-- The loop goes on behind line `i`. -/
def LinePasses (fileBuf : List Byte) (k j : List ℕ) (i : ℕ) : Prop :=
  ShortLine k j i ∧ Recognised (lineValue fileBuf k j i) i

/-- The value fits in the field of line `i`, and a name is not empty. -/
def LineFits (n : ℕ) : ℕ → Prop
  | 2 | 3 | 4 => n ≤ 16
  | 5 | 6 => 0 < n
  | _ => True

instance (n : ℕ) : ∀ i, Decidable (LineFits n i)
  | 0 | 1 | _ + 7 => .isTrue trivial
  | 2 | 3 | 4 => inferInstanceAs (Decidable (n ≤ 16))
  | 5 | 6 => inferInstanceAs (Decidable (0 < n))

/-- Few marks, and every line that is reached fits. -/
structure SafeFile (fileBuf : List Byte) (j k : List ℕ) : Prop where
  returns : j.length ≤ lineNumMax
  colons : j ≠ [] → k.length ≤ lineNumMax
  lines : j ≠ [] → k ≠ [] → ∀ i < 7, (∀ m ≤ i, LinePasses fileBuf k j m) →
    LineFits (j.getD i 0 - k.getD i 0) i

/-! ## The writes, one by one -/

theorem write_eq_ok_iff {t : Target} {i : ℤ} {n : ℕ} :
    write t i n = .ok () ↔ 0 ≤ i ∧ i + n ≤ t.size := by
  unfold write
  split_ifs with h
  · exact iff_of_true rfl h
  · exact iff_of_false nofun h

/-- The marks are stored one behind the other, as long as there is room. -/
theorem searchInto_eq_ok_iff {t : Target} {cbuf : List Byte} {ch : Byte} {is sbuf r : List ℕ}
    (hroom : sbuf.length ≤ t.size) :
    searchInto t cbuf ch is sbuf = .ok r ↔
      (sbuf ++ is.filter fun i => cbuf.getD i 0 = ch).length ≤ t.size ∧
        r = sbuf ++ is.filter fun i => cbuf.getD i 0 = ch := by
  induction is generalizing sbuf with
  | nil =>
    rw [searchInto, List.filter_nil, List.append_nil, Except.ok.injEq, eq_comm]
    exact (and_iff_right hroom).symm
  | cons i is ih =>
    by_cases hi : cbuf.getD i 0 = ch
    · have hfilter : (i :: is).filter (fun i => cbuf.getD i 0 = ch) =
          i :: is.filter fun i => cbuf.getD i 0 = ch := List.filter_cons_of_pos (by simpa using hi)
      rw [searchInto, if_pos hi, bind_eq_ok_iff, hfilter,
        List.append_cons sbuf i (is.filter fun i => cbuf.getD i 0 = ch)]
      by_cases hone : (sbuf ++ [i]).length ≤ t.size
      · have hwrite : write t sbuf.length 1 = .ok () := by
          rw [List.length_append, List.length_singleton] at hone
          exact write_eq_ok_iff.2 ⟨by omega, by omega⟩
        rw [← ih hone]
        exact ⟨fun ⟨_, _, h⟩ => h, fun h => ⟨(), hwrite, h⟩⟩
      · constructor
        · rintro ⟨_, hwrite, _⟩
          rw [List.length_append, List.length_singleton] at hone
          have := (write_eq_ok_iff.1 hwrite).2
          omega
        · rintro ⟨hlen, _⟩
          rw [List.length_append] at hlen
          omega
    · have hfilter : (i :: is).filter (fun i => cbuf.getD i 0 = ch) =
          is.filter fun i => cbuf.getD i 0 = ch := List.filter_cons_of_neg (by simpa using hi)
      rw [searchInto, if_neg hi, hfilter]
      exact ih hroom

theorem searchCharacterChecked_eq_ok_iff {t : Target} {cbuf : List Byte} {bsize : ℤ} {ch : Byte}
    {r : List ℕ} :
    searchCharacterChecked t cbuf bsize ch = .ok r ↔
      (searchCharacter cbuf bsize ch).length ≤ t.size ∧ r = searchCharacter cbuf bsize ch :=
  searchInto_eq_ok_iff (Nat.zero_le _)

theorem writeName_eq_ok_iff {t : Target} (ht : t.size = wifiNameMax) {value : List Byte}
    (hlen : value.length ≤ lineDataLenMax) : writeName t value = .ok () ↔ 0 < value.length := by
  have hmax : wifiNameMax = lineDataLenMax := rfl
  have hvalue : write t 0 value.length = .ok () := write_eq_ok_iff.2 ⟨le_rfl, by omega⟩
  unfold writeName
  rw [bind_eq_ok_iff]
  constructor
  · rintro ⟨_, _, hzero⟩
    by_cases hshort : value.length < wifiNameMax
    · rw [if_pos hshort] at hzero
      have := (write_eq_ok_iff.1 hzero).1
      omega
    · have : 0 < wifiNameMax := by decide
      omega
  · intro hpos
    refine ⟨(), hvalue, ?_⟩
    split_ifs with hshort
    · exact write_eq_ok_iff.2 ⟨by omega, by omega⟩
    · rfl

/-- The values that can be written to their fields. -/
theorem writeLine_eq_ok_iff {value : List Byte} (hlen : value.length ≤ lineDataLenMax) :
    ∀ i, writeLine value i = .ok () ↔ LineFits value.length i
  | 0 | 1 => iff_of_true rfl trivial
  | 2 | 3 | 4 => by
    simp only [writeLine, write_eq_ok_iff, LineFits, Target.size]
    omega
  | 5 | 6 => writeName_eq_ok_iff rfl hlen
  | _ + 7 => iff_of_true rfl trivial

theorem handleLine_eq_none_iff (config value : List Byte) :
    ∀ i, handleLine config value i = none ↔ ¬ Recognised value i
  | 0 => by
    rw [handleLine, Recognised]
    split_ifs with h1 h2 h3 <;> simp_all
  | 1 => by
    rw [handleLine, Recognised]
    split_ifs with h1 h2 <;> simp_all
  | 2 | 3 | 4 | 5 | 6 | _ + 7 => by simp [handleLine, Recognised]

theorem recognised_of_handleLine {config value config' : List Byte} {i : ℕ}
    (h : handleLine config value i = some config') : Recognised value i := by
  by_contra hno
  rw [(handleLine_eq_none_iff config value i).2 hno] at h
  cases h

theorem exists_handleLine (config : List Byte) {value : List Byte} {i : ℕ}
    (h : Recognised value i) : ∃ config', handleLine config value i = some config' := by
  cases hline : handleLine config value i with
  | none => exact absurd h ((handleLine_eq_none_iff config value i).1 hline)
  | some config' => exact ⟨config', rfl⟩

/-- The lines with a fixed choice of values are not copied. -/
theorem lineFits_of_not_recognised {value : List Byte} {n : ℕ} :
    ∀ {i}, ¬ Recognised value i → LineFits n i
  | 0, _ | 1, _ | _ + 7, _ => trivial
  | 2, h | 3, h | 4, h | 5, h | 6, h => absurd trivial h

/-! ## The loop over the lines -/

theorem lineLen_of_short {k j : List ℕ} {i : ℕ} (hj : j.getD i 0 < 2 ^ 31)
    (h : ShortLine k j i) :
    (BitVec.ofNat 32 (j.getD i 0) - BitVec.ofNat 32 (k.getD i 0)).toNat =
      j.getD i 0 - k.getD i 0 := by
  obtain ⟨hle, hlen⟩ := h
  rw [BitVec.toNat_sub, BitVec.toNat_ofNat, BitVec.toNat_ofNat]
  omega

/-- A line is not too long for the loop iff it is short. -/
theorem shortLine_iff {k j : List ℕ} {i : ℕ} (hj : j.getD i 0 < 2 ^ 31)
    (hk : k.getD i 0 < 2 ^ 31) :
    ¬ lineDataLenMax < (BitVec.ofNat 32 (j.getD i 0) - BitVec.ofNat 32 (k.getD i 0)).toNat ↔
      ShortLine k j i := by
  constructor
  · intro h
    obtain ⟨hle, hsub⟩ := lineLen_eq hj hk h
    exact ⟨hle, by omega⟩
  · intro h
    have hlen := lineLen_of_short hj h
    obtain ⟨_, hle⟩ := h
    omega

section

variable {fileBuf : List Byte} {k j : List ℕ}
variable (hk : ∀ i, k.getD i 0 < 2 ^ 31) (hj : ∀ i, j.getD i 0 < 2 ^ 31)

include hk hj

theorem handleLinesChecked_long {i : ℕ} (h : ¬ ShortLine k j i) (config : List Byte)
    (lines : List ℕ) :
    handleLinesChecked fileBuf k j config (i :: lines) =
      .ok (BitVec.ofNat 32 (j.getD i 0) - BitVec.ofNat 32 (k.getD i 0), config) := by
  have hclear : write .lineData 0 lineDataLenMax = .ok () := write_eq_ok_iff.2 ⟨le_rfl, by decide⟩
  have hlong := mt (shortLine_iff (hj i) (hk i)).1 h
  rw [handleLinesChecked, hclear]
  exact if_pos (not_not.1 hlong)

theorem handleLinesChecked_short {i : ℕ} (h : ShortLine k j i) (config : List Byte)
    (lines : List ℕ) :
    handleLinesChecked fileBuf k j config (i :: lines) = (do
      writeLine (lineValue fileBuf k j i) i
      match handleLine config (lineValue fileBuf k j i) i with
      | none => return (rtError, config)
      | some config => handleLinesChecked fileBuf k j config lines) := by
  have hclear : write .lineData 0 lineDataLenMax = .ok () := write_eq_ok_iff.2 ⟨le_rfl, by decide⟩
  have hshort := (shortLine_iff (hj i) (hk i)).2 h
  have hlen := lineLen_of_short (hj i) h
  have hdata : write .lineData 0 (j.getD i 0 - k.getD i 0) = .ok () :=
    write_eq_ok_iff.2 ⟨le_rfl, by rw [zero_add]; exact_mod_cast hlen ▸ not_lt.1 hshort⟩
  rw [handleLinesChecked, hclear]
  refine (if_neg hshort).trans ?_
  rw [hlen, hdata]
  rfl

/-- One pass of the loop. -/
theorem handleLinesChecked_step (config : List Byte) (i : ℕ) (lines : List ℕ) :
    (∃ r, handleLinesChecked fileBuf k j config (i :: lines) = .ok r) ↔
      (ShortLine k j i → LineFits (j.getD i 0 - k.getD i 0) i ∧
        ∀ config', handleLine config (lineValue fileBuf k j i) i = some config' →
          ∃ r, handleLinesChecked fileBuf k j config' lines = .ok r) := by
  by_cases hshort : ShortLine k j i
  · have hvalue : (lineValue fileBuf k j i).length = j.getD i 0 - k.getD i 0 := length_readN ..
    have hmax : (lineValue fileBuf k j i).length ≤ lineDataLenMax := by
      have := hshort.2
      omega
    rw [handleLinesChecked_short hk hj hshort, imp_iff_right hshort, ← hvalue,
      ← writeLine_eq_ok_iff hmax]
    simp only [bind_eq_ok_iff]
    cases hline : handleLine config (lineValue fileBuf k j i) i with
    | none =>
      constructor
      · rintro ⟨_, _, hwrite, _⟩
        exact ⟨hwrite, nofun⟩
      · rintro ⟨hwrite, _⟩
        exact ⟨_, (), hwrite, rfl⟩
    | some config' =>
      constructor
      · rintro ⟨r, _, hwrite, hrest⟩
        refine ⟨hwrite, fun _ h => ?_⟩
        obtain rfl := Option.some.inj h
        exact ⟨r, hrest⟩
      · rintro ⟨hwrite, hrest⟩
        obtain ⟨r, hr⟩ := hrest config' rfl
        exact ⟨r, (), hwrite, hr⟩
  · rw [handleLinesChecked_long hk hj hshort]
    exact iff_of_true ⟨_, rfl⟩ fun h => absurd h hshort

/-- The loop from line `a` on: every line that is reached fits. -/
theorem handleLinesChecked_iff (n : ℕ) (config : List Byte) (a : ℕ) :
    (∃ r, handleLinesChecked fileBuf k j config (List.range' a n) = .ok r) ↔
      ∀ i, a ≤ i → i < a + n → (∀ m, a ≤ m → m ≤ i → LinePasses fileBuf k j m) →
        LineFits (j.getD i 0 - k.getD i 0) i := by
  induction n generalizing config a with
  | zero => exact iff_of_true ⟨_, rfl⟩ fun i _ h => by omega
  | succ n ih =>
    rw [List.range'_succ, handleLinesChecked_step hk hj]
    constructor
    · intro h i hai hin hpass
      obtain ⟨hfits, hrest⟩ := h (hpass a le_rfl hai).1
      rcases Nat.eq_or_lt_of_le hai with rfl | hlt
      · exact hfits
      · obtain ⟨config', hline⟩ := exists_handleLine config (hpass a le_rfl hai).2
        exact (ih config' (a + 1)).1 (hrest config' hline) i hlt (by omega)
          fun m ham hmi => hpass m (by omega) hmi
    · intro h hshort
      constructor
      · by_cases hrec : Recognised (lineValue fileBuf k j a) a
        · refine h a le_rfl (by omega) fun m ham hma => ?_
          obtain rfl := Nat.le_antisymm ham hma
          exact ⟨hshort, hrec⟩
        · exact lineFits_of_not_recognised hrec
      · intro config' hline
        refine (ih config' (a + 1)).2 fun i hai hin hpass => ?_
        refine h i (by omega) (by omega) fun m ham hmi => ?_
        rcases Nat.eq_or_lt_of_le ham with rfl | hlt
        · exact ⟨hshort, recognised_of_handleLine hline⟩
        · exact hpass m hlt hmi

end

/-- A loop with all its writes inside is the loop of the model without checks. -/
theorem handleLines_of_checked {fileBuf : List Byte} {k j lines : List ℕ} {config : List Byte}
    {r : BitVec 32 × List Byte}
    (h : handleLinesChecked fileBuf k j config lines = .ok r) :
    handleLines fileBuf k j config lines = r := by
  induction lines generalizing config with
  | nil => exact Except.ok.inj h
  | cons i lines ih =>
    rw [handleLinesChecked, bind_eq_ok_iff] at h
    obtain ⟨_, _, h⟩ := h
    rw [handleLines]
    dsimp only at h ⊢
    split_ifs at h ⊢ with hlong
    · exact Except.ok.inj h
    · rw [bind_eq_ok_iff] at h
      obtain ⟨_, _, h⟩ := h
      rw [bind_eq_ok_iff] at h
      obtain ⟨_, _, h⟩ := h
      revert h
      cases handleLine config _ i with
      | none => exact fun h => Except.ok.inj h
      | some config' => exact ih

/-! ## The whole file -/

theorem getD_searchCharacter_lt {cbuf : List Byte} {bsize : ℤ} (hsize : bsize < 2 ^ 31) (ch : Byte)
    (i : ℕ) : (searchCharacter cbuf bsize ch).getD i 0 < 2 ^ 31 := by
  by_cases hi : i < (searchCharacter cbuf bsize ch).length
  · rw [List.getD_eq_getElem _ _ hi]
    have := (mem_searchCharacter.1 (List.getElem_mem hi)).1
    omega
  · rw [List.getD_eq_default _ _ (Nat.le_of_not_lt hi)]
    decide

/-- A run with all its writes inside gives the result of the model without checks. -/
theorem handleSerNetConfigFile_of_checked {serNetConfig : ServerNetInformation}
    {fileBuf : List Byte} {fileSize : ℤ} {r : BitVec 32 × ServerNetInformation}
    (h : handleSerNetConfigFileChecked serNetConfig fileBuf fileSize = .ok r) :
    handleSerNetConfigFile serNetConfig fileBuf fileSize = some r := by
  obtain ⟨_, hj, h⟩ := bind_eq_ok_iff.1 h
  obtain ⟨hjlen, rfl⟩ := searchCharacterChecked_eq_ok_iff.1 hj
  refine (if_neg (Nat.not_lt.2 hjlen)).trans ?_
  by_cases hj0 : searchCharacter fileBuf fileSize usbDataMark2 = []
  · rw [if_pos hj0] at h ⊢
    exact congrArg some (Except.ok.inj h)
  obtain ⟨_, hk, h⟩ := bind_eq_ok_iff.1 ((if_neg hj0).symm.trans h)
  obtain ⟨hklen, rfl⟩ := searchCharacterChecked_eq_ok_iff.1 hk
  refine (if_neg hj0).trans ((if_neg (Nat.not_lt.2 hklen)).trans ?_)
  by_cases hk0 : searchCharacter fileBuf fileSize usbDataMark1 = []
  · rw [if_pos hk0] at h ⊢
    exact congrArg some (Except.ok.inj h)
  obtain ⟨⟨ret, config⟩, hlines, h⟩ := bind_eq_ok_iff.1 ((if_neg hk0).symm.trans h)
  rw [if_neg hk0, handleLines_of_checked hlines]
  dsimp only at h ⊢
  by_cases hret : ret = rtEok
  · rw [if_pos hret] at h ⊢
    exact congrArg some (Except.ok.inj h)
  · rw [if_neg hret] at h ⊢
    exact congrArg some (Except.ok.inj h)

/-- All writes are inside iff the file is safe. -/
theorem writes_inside_iff (serNetConfig : ServerNetInformation) (fileBuf : List Byte)
    {fileSize : ℤ} (hsize : fileSize < 2 ^ 31) :
    (∃ r, handleSerNetConfigFileChecked serNetConfig fileBuf fileSize = .ok r) ↔
      SafeFile fileBuf (searchCharacter fileBuf fileSize usbDataMark2)
        (searchCharacter fileBuf fileSize usbDataMark1) := by
  set j := searchCharacter fileBuf fileSize usbDataMark2
  set k := searchCharacter fileBuf fileSize usbDataMark1
  have hloop : (∃ r, handleLinesChecked fileBuf k j
      (serConConfigLayout.encode serNetConfig.netConfig) (List.range 7) = .ok r) ↔
      ∀ i < 7, (∀ m ≤ i, LinePasses fileBuf k j m) → LineFits (j.getD i 0 - k.getD i 0) i := by
    have h := @handleLinesChecked_iff fileBuf k j
      (getD_searchCharacter_lt hsize _) (getD_searchCharacter_lt hsize _) 7
      (serConConfigLayout.encode serNetConfig.netConfig) 0
    simpa only [← List.range_eq_range', Nat.zero_le, true_imp_iff, Nat.zero_add] using h
  constructor
  · rintro ⟨r, h⟩
    obtain ⟨_, hj, h⟩ := bind_eq_ok_iff.1 h
    obtain ⟨hjlen, rfl⟩ := searchCharacterChecked_eq_ok_iff.1 hj
    by_cases hj0 : j = []
    · exact ⟨hjlen, absurd hj0, absurd hj0⟩
    · obtain ⟨_, hk, h⟩ := bind_eq_ok_iff.1 ((if_neg hj0).symm.trans h)
      obtain ⟨hklen, rfl⟩ := searchCharacterChecked_eq_ok_iff.1 hk
      refine ⟨hjlen, fun _ => hklen, fun _ hk0 => ?_⟩
      obtain ⟨r, hlines, _⟩ := bind_eq_ok_iff.1 ((if_neg hk0).symm.trans h)
      exact hloop.1 ⟨r, hlines⟩
  · rintro ⟨hjlen, hklen, hfits⟩
    have hj : searchCharacterChecked .j fileBuf fileSize usbDataMark2 = .ok j :=
      searchCharacterChecked_eq_ok_iff.2 ⟨hjlen, rfl⟩
    by_cases hj0 : j = []
    · exact ⟨_, bind_eq_ok_iff.2 ⟨j, hj, if_pos hj0⟩⟩
    have hk : searchCharacterChecked .k fileBuf fileSize usbDataMark1 = .ok k :=
      searchCharacterChecked_eq_ok_iff.2 ⟨hklen hj0, rfl⟩
    by_cases hk0 : k = []
    · exact ⟨_, bind_eq_ok_iff.2 ⟨j, hj, (if_neg hj0).trans
        (bind_eq_ok_iff.2 ⟨k, hk, if_pos hk0⟩)⟩⟩
    obtain ⟨⟨ret, config⟩, hlines⟩ := hloop.2 (hfits hj0 hk0)
    have hafter : ∀ {r}, (if ret = rtEok then do
        let config ← clearAddrsChecked config
        return (ret, { serNetConfig with netConfig := serConConfigLayout.decode config })
      else return (ret, { serNetConfig with netConfig := serConConfigLayout.decode config })) =
        Except.ok r → handleSerNetConfigFileChecked serNetConfig fileBuf fileSize = .ok r := by
      intro r h
      exact bind_eq_ok_iff.2 ⟨j, hj, (if_neg hj0).trans (bind_eq_ok_iff.2 ⟨k, hk,
        (if_neg hk0).trans (bind_eq_ok_iff.2 ⟨_, hlines, h⟩)⟩)⟩
    by_cases hret : ret = rtEok
    · exact ⟨_, hafter ((if_pos hret).trans rfl)⟩
    · exact ⟨_, hafter ((if_neg hret).trans rfl)⟩

/-- The lines `:eth`, `:open`, three addresses and two texts, each value one character. -/
def sevenLines : List Byte :=
  [0x3A] ++ ethText ++ [0x0D, 0x3A] ++ openText ++ [0x0D, 0x3A, 0x31, 0x0D, 0x3A, 0x31, 0x0D,
    0x3A, 0x31, 0x0D, 0x3A, 0x6E, 0x0D, 0x3A, 0x70, 0x0D]

theorem writes_inside_iff_short :
    (sevenLines.length : ℤ) < 2 ^ 31 ∧ ∃ r, handleSerNetConfigFileChecked ServerNetInformation.zero
      sevenLines sevenLines.length = .ok r := by
  have hfits : ∀ i < 7,
      LineFits ((searchCharacter sevenLines sevenLines.length usbDataMark2).getD i 0 -
        (searchCharacter sevenLines sevenLines.length usbDataMark1).getD i 0) i := by decide
  exact ⟨by decide, (writes_inside_iff ServerNetInformation.zero sevenLines (by decide)).2
    ⟨by decide, fun _ => by decide, fun _ _ i hi _ => hfits i hi⟩⟩

/-- Twenty-one carriage returns, twenty-one `':'`, an address of 16 characters, and a
    file with five lines. -/
theorem writes_outside :
    handleSerNetConfigFileChecked ServerNetInformation.zero (List.replicate 21 0x0D) 21 =
        .error .j ∧
      handleSerNetConfigFileChecked ServerNetInformation.zero
        (List.replicate 21 0x3A ++ [0x0D]) 22 = .error .k ∧
      handleSerNetConfigFileChecked ServerNetInformation.zero (sevenLines.take 11 ++
        0x3A :: List.replicate 16 0x31 ++ [0x0D]) 29 = .error .ipaddr ∧
      handleSerNetConfigFileChecked ServerNetInformation.zero (sevenLines.take 20) 20 =
        .error .wifiName :=
  ⟨rfl, rfl, rfl, rfl⟩

end Abox.Config
