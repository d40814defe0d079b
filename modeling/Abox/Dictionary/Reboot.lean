import Abox.Config.Rotation
import Abox.Dictionary.Bounds

/-!
# The reboot password

`del_smd2_func` gives `rt_strcmp` the frame from its header on, not the bytes behind the
scmd, and calls `HWReboot` if the strings differ.

* `reboot_iff`: for which frames the device still does what the password is there for.
-/

namespace Abox.Dictionary

open Server Config Update

/-- The 8 bytes behind the scmd. -/
def passwordField (frame : List Byte) : List Byte := (frame.drop (sizeofStPackCmd + 2)).take 8

/-- The stored password. -/
def DictionaryInfo.password (d : DictionaryInfo) : List Byte := List.ofFn d.thirdDicInfo.imePassword

/-- What was received is, as a string, the copy of the password with the `stack` behind
    it. -/
def HeaderMatches (d : DictionaryInfo) (stack rev : List Byte) : Prop :=
  cString rev = cString (d.password ++ stack)

instance (d : DictionaryInfo) (stack rev : List Byte) : Decidable (HeaderMatches d stack rev) :=
  inferInstanceAs (Decidable (cString rev = cString (d.password ++ stack)))

/-- For a reboot command only `del_smd2_func` matters. -/
theorem reboots_iff (appId : BitVec 32) (d : DictionaryInfo) (stack : List Byte) (s : ServerSystem)
    {frame rev : List Byte} (h : Received tcmd121ScmdReboot frame rev) :
    (recv_dic_cmd appId d stack s rev).reboots = true ↔ ¬ HeaderMatches d stack rev := by
  have hcmd : recv_dic_cmd appId d stack s rev =
      if del_smd2_func d stack rev then .reboot else .nothing := by
    simp only [recv_dic_cmd, h.scmd]
    rfl
  have hcmp := not_congr (rt_strcmp_eq_zero_iff rev (d.password ++ stack))
  rw [hcmd, HeaderMatches, ← hcmp]
  by_cases hne : rt_strcmp rev (d.password ++ stack) ≠ 0
  · rw [if_pos (show del_smd2_func d stack rev = true from decide_eq_true hne)]
    exact iff_of_true rfl hne
  · rw [if_neg (show ¬ del_smd2_func d stack rev = true from fun h => hne (of_decide_eq_true h))]
    exact iff_of_false nofun hne

/-- The string of a `TCMD_121` frame has the cmd as its second character. -/
theorem cString_eq_cons {scmd : BitVec 16} {frame rev : List Byte} (h : Received scmd frame rev) :
    ∃ b bs, cString rev = b :: tcmd121 :: bs := by
  have height := h.eight_le
  obtain ⟨slot, hslot⟩ := h.front
  have hcmd : rev.getD 1 0 = tcmd121 := by
    rw [← hslot, getD_append_of_lt (by omega)]
    exact h.cmd
  have hhead : IsHead (rev.getD 0 0) := by
    rw [← hslot, getD_append_of_lt (by omega)]
    have hspec := verdict_spec frame
    rw [h.accepted] at hspec
    generalize frame.length = len at hspec
    cases hspec with
    | frame hhead _ _ _ => exact hhead
  clear h height hslot
  match rev, hcmd, hhead with
  | b :: c :: bs, hcmd, hhead =>
    obtain rfl : c = tcmd121 := hcmd
    have hb : b ≠ 0 := by
      rcases (show b = 0x23 ∨ b = 0x24 from hhead) with rfl | rfl
      all_goals decide
    exact ⟨b, cString bs, by rw [cString_cons_of_ne hb, cString_cons_of_ne (by decide)]⟩

/-- With a password that does not look like the head of a `TCMD_121` frame, every reboot
    command is carried out. -/
theorem reboots_of_password_ne (appId : BitVec 32) {d : DictionaryInfo} (stack : List Byte)
    (s : ServerSystem) {frame rev : List Byte} (h : Received tcmd121ScmdReboot frame rev)
    (hpw : d.thirdDicInfo.imePassword 1 ≠ tcmd121) :
    (recv_dic_cmd appId d stack s rev).reboots = true := by
  refine (reboots_iff appId d stack s h).2 fun hmatch => hpw ?_
  obtain ⟨b, bs, hstring⟩ := cString_eq_cons h
  obtain ⟨rest, hrest⟩ : cString (d.password ++ stack) <+: d.password ++ stack :=
    List.takeWhile_prefix _
  rw [← show cString rev = _ from hmatch, hstring] at hrest
  have hone := congrArg (List.getD · 1 0) hrest
  exact hone.symm

/-! ## The password -/

/-- The device reboots for the password, and for nothing else, exactly if the comparison
    with the header has, by chance, the other outcome than one with the field. -/
theorem reboot_iff (appId : BitVec 32) (d : DictionaryInfo) (stack : List Byte) (s : ServerSystem)
    {frame rev : List Byte} (h : Received tcmd121ScmdReboot frame rev) :
    ((recv_dic_cmd appId d stack s rev).reboots = true ↔ passwordField frame = d.password) ↔
      (passwordField frame = d.password ∧ ¬ HeaderMatches d stack rev ∨
        passwordField frame ≠ d.password ∧ HeaderMatches d stack rev) := by
  rw [reboots_iff appId d stack s h]
  by_cases hfield : passwordField frame = d.password
  · simp only [hfield, iff_true, true_and, ne_eq, not_true_eq_false, false_and, or_false]
  · simp only [hfield, iff_false, not_not, false_and, ne_eq, not_false_eq_true, true_and, false_or]

/-- The password `"esto1111"` of `setDicnary3` (`dictionary.c` line 49), and one that
    begins like a frame. -/
def estoDictionary : DictionaryInfo :=
  { zeroDictionary with thirdDicInfo :=
      ⟨0, 0, fun i => [0x65, 0x73, 0x74, 0x6F, 0x31, 0x31, 0x31, 0x31].getD i 0, fun _ => 0⟩ }
def headDictionary : DictionaryInfo :=
  { zeroDictionary with thirdDicInfo := ⟨0, 0, fun i => [0x24, 121].getD i 0, fun _ => 0⟩ }

/-- `"esto1111"` behind the scmd; and `"00000000"`, sent for the devices 1 and 0. -/
def rightPassword : List Byte :=
  [0x24, 121, 1, 0, 0, 0, 10, 0, 2, 0, 0x65, 0x73, 0x74, 0x6F, 0x31, 0x31, 0x31, 0x31, 97, 206]
def wrongPassword : List Byte :=
  [0x24, 121, 1, 0, 0, 0, 10, 0, 2, 0, 0x30, 0x30, 0x30, 0x30, 0x30, 0x30, 0x30, 0x30, 221, 44]
def wrongPassword0 : List Byte :=
  [0x24, 121, 0, 0, 0, 0, 10, 0, 2, 0, 0x30, 0x30, 0x30, 0x30, 0x30, 0x30, 0x30, 0x30, 28, 188]

theorem received_rightPassword :
    Received tcmd121ScmdReboot rightPassword (inSlot 0xA5 rightPassword) := by
  have h : WellFormed rightPassword :=
    ⟨by decide, by decide, by decide, by decide, by decide +kernel⟩
  exact received_inSlot h rfl rfl 0xA5

theorem received_wrongPassword :
    Received tcmd121ScmdReboot wrongPassword (inSlot 0xA5 wrongPassword) := by
  have h : WellFormed wrongPassword :=
    ⟨by decide, by decide, by decide, by decide, by decide +kernel⟩
  exact received_inSlot h rfl rfl 0xA5

theorem received_wrongPassword0 :
    Received tcmd121ScmdReboot wrongPassword0 (inSlot 0xA5 wrongPassword0) := by
  have h : WellFormed wrongPassword0 :=
    ⟨by decide, by decide, by decide, by decide, by decide +kernel⟩
  exact received_inSlot h rfl rfl 0xA5

theorem reboot_iff_right :
    (recv_dic_cmd 1 estoDictionary [] erasedSystem (inSlot 0xA5 rightPassword)).reboots = true ↔
      passwordField rightPassword = estoDictionary.password :=
  (reboot_iff 1 estoDictionary [] erasedSystem received_rightPassword).2
    (Or.inl ⟨by decide, by decide⟩)

/-- `"00000000"` reboots a device with the password `"esto1111"`; and with the other
    password the id in the header decides, for the same 8 bytes. -/
theorem reboot_without_password :
    (Received tcmd121ScmdReboot wrongPassword (inSlot 0xA5 wrongPassword) ∧
      Received tcmd121ScmdReboot wrongPassword0 (inSlot 0xA5 wrongPassword0)) ∧
    (recv_dic_cmd 1 estoDictionary [] erasedSystem (inSlot 0xA5 wrongPassword)).reboots = true ∧
    passwordField wrongPassword ≠ estoDictionary.password ∧
    passwordField wrongPassword = passwordField wrongPassword0 ∧
    (recv_dic_cmd 1 headDictionary [] erasedSystem (inSlot 0xA5 wrongPassword)).reboots = true ∧
    ¬ (recv_dic_cmd 1 headDictionary [] erasedSystem
      (inSlot 0xA5 wrongPassword0)).reboots = true := by
  refine ⟨⟨received_wrongPassword, received_wrongPassword0⟩, ?_, by decide, by decide, ?_, ?_⟩
  · exact reboots_of_password_ne 1 [] erasedSystem received_wrongPassword (by decide)
  · exact (reboots_iff 1 headDictionary [] erasedSystem received_wrongPassword).2 (by decide)
  · rw [reboots_iff 1 headDictionary [] erasedSystem received_wrongPassword0]
    exact not_not.2 (by decide)

end Abox.Dictionary
