import Abox.Config.ServerInfo
import Abox.Lib.Ring
import Abox.Lib.Runs

/-!
# The ring of the network log

`record_log` (`Abox_log.c` lines 76–136 and 251–318) keeps a record of the network for
each of its last five calls. The slot of the oldest one is used again as it is, and
`netif_stat` is not assigned if the interface is up.

* `ring_holds_iff`: in a run the ring holds what was found at the last five calls if
  and only if no call finds up what was down five calls before.
* `ring_stale`: a run in which a link that is up again is recorded as down.
-/

namespace Abox.Log

open Config Runs

/-! ## The records -/

/-- `LOG_REC_NUM`, `ARP_TABLE_SIZE`. -/
def logRecNum : ℕ := 5
def arpTableSize : ℕ := 10

/-- `struct _arp_table_info`. -/
structure ArpTableInfo where
  ip_addr : Fin 4 → Byte
  mac : Fin 6 → Byte
  deriving DecidableEq

/-- Whether the loop over a mac finds only zeros (`j` is 6 behind it, lines 536–543 and 769–776). -/
def ArpTableInfo.noMac (e : ArpTableInfo) : Bool :=
  let j := (List.finRange 6).findIdx fun j => e.mac j ≠ 0
  j = 6 ∧ e.mac 5 = 0

/-- `struct _log_info`. -/
structure LogInfo where
  mod_id : BitVec 32
  soft_ver : BitVec 32
  config_link_stlye : BitVec 32
  reclognum : BitVec 32
  dev_mac : Fin 6 → Byte
  mod_type : Byte
  recent_update_num : Byte
  netInfo : Fin serverNumMax → NetInfo
  deriving DecidableEq

/-- `struct _each_log`. -/
structure EachLog where
  lognum : Byte
  tick : BitVec 32
  currentConnectStyle : Byte
  link_stat : BitVec 32
  err_palce : Byte
  DHCP_stat : Byte
  netif_stat : BitVec 16
  ip_addr : BitVec 32
  mask_addr : BitVec 32
  gatway_addr : BitVec 32
  wifiname : Chars 24
  wifipassword : Chars 24
  ip_mac_addr : Fin arpTableSize → ArpTableInfo
  deriving DecidableEq

/-- `struct _log_sheet`. -/
structure LogSheet where
  log_info : LogInfo
  elog : Fin logRecNum → EachLog

/-- The fields of `struct netif` that are recorded. -/
structure Netif where
  hwaddr : Fin 6 → Byte
  hwaddr_len : Fin 7
  flags : Byte
  ip_addr : BitVec 32
  netmask : BitVec 32
  gw : BitVec 32

/-- What `record_log` finds: `Sys_Setup.app`, the version, `returnNetconfig()`, the
    interface, the time, `Cdma_Info`, `dicInfo.secondDicInfo.panelLink` and the ARP table. -/
structure NetState where
  id : BitVec 32
  mode : Byte
  ver : BitVec 32
  serNetConfig : ServerNetInformation
  netif : Netif
  tick : BitVec 32
  currentConnectStyle : Byte
  conErrPlace : Byte
  panelLink : BitVec 32
  arp_table : Fin arpTableSize → ArpTableInfo

/-! ## Recording -/

/-- `NETIF_FLAG_UP` and `NETIF_FLAG_LINK_UP`. -/
def netifFlagUp : Byte := 0x01
def netifFlagLinkUp : Byte := 0x10

def Netif.up (netif : Netif) : Prop := netif.flags &&& netifFlagUp ≠ 0
def Netif.linkUp (netif : Netif) : Prop := netif.flags &&& netifFlagLinkUp ≠ 0

instance (netif : Netif) : Decidable netif.up := inferInstanceAs (Decidable (_ ≠ _))
instance (netif : Netif) : Decidable netif.linkUp := inferInstanceAs (Decidable (_ ≠ _))

/-- `netif_stat` of a record that has the value `stat` (lines 293–302). -/
def netifStat (netif : Netif) (stat : BitVec 16) : BitVec 16 :=
  let stat := if ¬ netif.up then 0x100 else stat
  if ¬ netif.linkUp then stat ||| 1 else stat

/-- The record number `index`, which is `elog_t` before (lines 283–315). -/
def record_each (st : NetState) (index : Byte) (elog_t : EachLog) : EachLog :=
  { lognum := index + 1
    tick := st.tick
    currentConnectStyle := st.currentConnectStyle
    link_stat := st.panelLink
    err_palce := st.conErrPlace
    DHCP_stat := st.serNetConfig.netConfig.ethConfig.status.setWidth 8
    netif_stat := netifStat st.netif elog_t.netif_stat
    ip_addr := st.netif.ip_addr
    mask_addr := st.netif.netmask
    gatway_addr := st.netif.gw
    wifiname := st.serNetConfig.netConfig.wifiConfig.wifiName
    wifipassword := st.serNetConfig.netConfig.wifiConfig.wifiPassword
    ip_mac_addr := st.arp_table }

/-- `recent_update_num` after lines 266–267. -/
def LogInfo.index (log_info : LogInfo) : Byte :=
  if log_info.recent_update_num.toNat ≥ logRecNum then 0 else log_info.recent_update_num

/-- `log_info` after lines 258–279 and 317. -/
def record_info (st : NetState) (log_info : LogInfo) : LogInfo :=
  { mod_id := st.id
    soft_ver := st.ver
    config_link_stlye := st.serNetConfig.netConfig.configStyle
    reclognum := log_info.reclognum + 1
    dev_mac := fun i => if i.val < st.netif.hwaddr_len then st.netif.hwaddr i
      else log_info.dev_mac i
    mod_type := st.mode
    recent_update_num := log_info.index + 1
    netInfo := st.serNetConfig.netInfo }

/-- `record_log`. -/
def record_log (st : NetState) (sheet : LogSheet) : LogSheet :=
  { log_info := record_info st sheet.log_info
    elog := fun k =>
      if k.val = sheet.log_info.index.toNat then record_each st sheet.log_info.index (sheet.elog k)
      else sheet.elog k }

/-- The memory that `rt_calloc` returns. -/
def EachLog.zero : EachLog :=
  ⟨0, 0, 0, 0, 0, 0, 0, 0, 0, 0, fun _ => 0, fun _ => 0, fun _ => ⟨fun _ => 0, fun _ => 0⟩⟩

def LogSheet.zero : LogSheet :=
  ⟨⟨0, 0, 0, 0, fun _ => 0, 0, 0, fun _ => NetInfo.zero⟩, fun _ => EachLog.zero⟩

/-! ## What the ring is to hold -/

/-- `netif_stat` as the state gives it. -/
def freshStat (netif : Netif) : BitVec 16 :=
  (if netif.up then 0 else 0x100) ||| (if netif.linkUp then 0 else 1)

/-- The record of a state in the slot `index`. -/
def snapshot (index : ℕ) (st : NetState) : EachLog :=
  { record_each st (BitVec.ofNat 8 index) EachLog.zero with netif_stat := freshStat st.netif }

/-- The snapshots of the calls made so far. -/
def snapshots (calls : List NetState) : List EachLog :=
  calls.mapIdx fun c st => snapshot (c % logRecNum) st

/-- The states at the calls made so far, and the sheet. -/
structure LogRun where
  calls : List NetState
  sheet : LogSheet

def LogRun.init : LogRun := ⟨[], LogSheet.zero⟩

/-- A call of `record_log`. -/
def RecordStep (s : LogRun) (st : NetState) (s' : LogRun) : Prop :=
  s' = ⟨s.calls ++ [st], record_log st s.sheet⟩

/-- The ring holds the snapshots of the last calls and no other records, the newest one in
    front of `recent_update_num`. -/
structure RingHolds (s : LogRun) : Prop where
  holds : Ring.Holds s.sheet.elog (snapshots s.calls)
  cleared : ∀ k : Fin logRecNum, s.calls.length ≤ k → s.sheet.elog k = EachLog.zero
  newest : ∀ st, s.calls.getLast? = some st →
    ∃ k : Fin logRecNum, k.val + 1 = s.sheet.log_info.recent_update_num.toNat ∧
      s.sheet.elog k = snapshot k st

/-- What is up now, of the interface and, if it is up, of its link, was up five calls
    before. -/
def NotUpAgain (s : LogRun) (st : NetState) : Prop :=
  ∀ old, s.calls.reverse[logRecNum - 1]? = some old → st.netif.up →
    old.netif.up ∧ (st.netif.linkUp → old.netif.linkUp)

instance : NeZero logRecNum := ⟨by decide⟩

/-- Read backwards from the newest one, the slots are the snapshots of the last calls. -/
theorem RingHolds.newest_first {s : LogRun} (h : RingHolds s) :
    (List.range (min s.calls.length logRecNum)).map
        (fun i => s.sheet.elog (Fin.ofNat logRecNum (s.calls.length - 1 - i))) =
      (snapshots s.calls).reverse.take logRecNum := by
  have hring := h.holds.newest_first
  rwa [snapshots, List.length_mapIdx, ← snapshots] at hring

/-! ## One call -/

theorem netifStat_zero (netif : Netif) : netifStat netif 0 = freshStat netif := by
  unfold netifStat freshStat
  by_cases hup : netif.up <;> by_cases hlink : netif.linkUp <;> simp [hup, hlink]

/-- A value left over from another state is harmless if that one was up as far as this one
    is. -/
theorem netifStat_freshStat_iff (netif old : Netif) :
    netifStat netif (freshStat old) = freshStat netif ↔
      (netif.up → old.up ∧ (netif.linkUp → old.linkUp)) := by
  unfold netifStat freshStat
  by_cases hup : netif.up <;> by_cases hlink : netif.linkUp <;> by_cases hup' : old.up <;>
    by_cases hlink' : old.linkUp <;> simp [hup, hlink, hup', hlink']

/-- Apart from `netif_stat`, nothing of the record that was in the slot is left. -/
theorem record_each_eq_snapshot_iff (st : NetState) (index : ℕ) (elog_t : EachLog) :
    record_each st (BitVec.ofNat 8 index) elog_t = snapshot index st ↔
      netifStat st.netif elog_t.netif_stat = freshStat st.netif := by
  constructor
  · exact fun h => congrArg EachLog.netif_stat h
  · intro h
    unfold record_each snapshot
    rw [h]
    rfl

/-- The next slot, and the slots that have not been used. -/
structure SheetInv (s : LogRun) : Prop where
  recent : s.sheet.log_info.recent_update_num.toNat =
    if s.calls = [] then 0 else (s.calls.length - 1) % logRecNum + 1
  cleared : ∀ k : Fin logRecNum, s.calls.length ≤ k → s.sheet.elog k = EachLog.zero

theorem SheetInv.init : SheetInv LogRun.init := ⟨rfl, fun _ _ => rfl⟩

theorem SheetInv.index {s : LogRun} (h : SheetInv s) :
    s.sheet.log_info.index = BitVec.ofNat 8 (s.calls.length % logRecNum) := by
  have hnum : logRecNum = 5 := rfl
  have hrecent := h.recent
  apply BitVec.eq_of_toNat_eq
  unfold LogInfo.index
  rw [BitVec.toNat_ofNat]
  rw [hnum] at hrecent ⊢
  by_cases hcalls : s.calls = []
  · rw [if_pos hcalls] at hrecent
    rw [if_neg (by omega), hrecent, hcalls]
    rfl
  · have := List.length_pos_iff.2 hcalls
    rw [if_neg hcalls] at hrecent
    split_ifs with hfull
    · show 0 = _
      omega
    · omega

theorem SheetInv.toNat_index {s : LogRun} (h : SheetInv s) :
    s.sheet.log_info.index.toNat = s.calls.length % logRecNum := by
  have hnum : logRecNum = 5 := rfl
  rw [h.index, BitVec.toNat_ofNat, hnum]
  omega

theorem SheetInv.step {s s' : LogRun} {st : NetState} (h : SheetInv s) (hs : RecordStep s st s') :
    SheetInv s' := by
  subst hs
  have hnum : logRecNum = 5 := rfl
  have hindex := h.toNat_index
  constructor
  · show (s.sheet.log_info.index + 1).toNat = _
    rw [BitVec.toNat_add, hindex, if_neg (by simp), List.length_append, List.length_singleton,
      Nat.add_sub_cancel]
    show (s.calls.length % logRecNum + 1) % 256 = _
    rw [hnum]
    omega
  · intro k hk
    show (if k.val = s.sheet.log_info.index.toNat then _ else s.sheet.elog k) = _
    simp only [List.length_append, List.length_singleton] at hk
    have := Nat.mod_le s.calls.length logRecNum
    rw [hindex, if_neg (by omega)]
    exact h.cleared k (by omega)

theorem snapshots_append (calls : List NetState) (st : NetState) :
    snapshots (calls ++ [st]) =
      snapshots calls ++ [snapshot (calls.length % logRecNum) st] := by
  simp [snapshots, List.mapIdx_append]

/-- A call keeps the ring if it fills its slot with its snapshot. -/
theorem ringHolds_push_iff {s : LogRun} {st : NetState} (h : SheetInv s) (hr : RingHolds s)
    {k : Fin logRecNum} (hk : s.calls.length % logRecNum = k) :
    RingHolds ⟨s.calls ++ [st], record_log st s.sheet⟩ ↔
      record_each st (BitVec.ofNat 8 k) (s.sheet.elog k) = snapshot k st := by
  have hinv : SheetInv ⟨s.calls ++ [st], record_log st s.sheet⟩ := h.step rfl
  have hslot : (record_log st s.sheet).elog k =
      record_each st (BitVec.ofNat 8 k) (s.sheet.elog k) := by
    show (if k.val = s.sheet.log_info.index.toNat then _ else _) = _
    rw [if_pos (by rw [h.toNat_index, hk]), h.index, hk]
  have hother : ∀ j, j ≠ k → (record_log st s.sheet).elog j = s.sheet.elog j := by
    intro j hj
    refine if_neg fun heq => hj (Fin.ext ?_)
    rw [heq, h.toNat_index, hk]
  have hlen : (snapshots s.calls).length % logRecNum = k := by rwa [snapshots, List.length_mapIdx]
  have hpush := Ring.holds_push_iff hr.holds hlen hother (snapshot k st)
  rw [← hk, ← snapshots_append, hk, hslot] at hpush
  rw [← hpush]
  refine ⟨fun h => h.holds, fun hholds => ⟨hholds, hinv.cleared, ?_⟩⟩
  intro st' hlast
  obtain rfl : st = st' := by simpa using hlast
  refine ⟨k, ?_, ?_⟩
  · rw [hinv.recent, if_neg (by simp)]
    simp [hk]
  · rw [hslot]
    exact hpush.1 hholds

/-- The record that the next call finds in its slot. -/
theorem elog_next {s : LogRun} (h : SheetInv s) (hr : RingHolds s) {k : Fin logRecNum}
    (hk : s.calls.length % logRecNum = k) :
    s.sheet.elog k = match s.calls.reverse[logRecNum - 1]? with
      | none => EachLog.zero
      | some old => snapshot k old := by
  have hnum : logRecNum = 5 := rfl
  by_cases hlt : s.calls.length < logRecNum
  · rw [List.getElem?_eq_none (by simp; omega)]
    exact h.cleared k (by rw [← hk, Nat.mod_eq_of_lt hlt])
  · have hlast : s.calls.length - 1 - (logRecNum - 1) = s.calls.length - logRecNum := by omega
    have hget : s.calls.length - logRecNum < s.calls.length := by omega
    rw [List.getElem?_reverse (by omega), hlast, List.getElem?_eq_getElem hget]
    have hmod : (s.calls.length - logRecNum) % logRecNum = k := by
      rw [← hk, ← Nat.mod_eq_sub_mod (by omega)]
    refine hr.holds k (s.calls.length - logRecNum) _ ?_ (by simp [snapshots]; omega) hmod
    simp [snapshots, hget, hmod]

theorem ringHolds_step_iff {s s' : LogRun} {st : NetState} (h : SheetInv s) (hr : RingHolds s)
    (hs : RecordStep s st s') : RingHolds s' ↔ NotUpAgain s st := by
  subst hs
  have hk : s.calls.length % logRecNum =
      (⟨s.calls.length % logRecNum, Nat.mod_lt _ (by decide)⟩ : Fin logRecNum) := rfl
  rw [ringHolds_push_iff h hr hk, record_each_eq_snapshot_iff, elog_next h hr hk]
  unfold NotUpAgain
  cases s.calls.reverse[logRecNum - 1]? with
  | none => exact iff_of_true (netifStat_zero st.netif) nofun
  | some old =>
    rw [show (snapshot _ old).netif_stat = freshStat old.netif from rfl, netifStat_freshStat_iff]
    exact ⟨fun h o ho => Option.some.inj ho ▸ h, fun h => h old rfl⟩

theorem ringHolds_init : RingHolds LogRun.init where
  holds := Ring.holds_nil _
  cleared := fun _ _ => rfl
  newest := nofun

/-! ## Runs -/

theorem ring_holds_iff {tr : List (NetState × LogRun)} (h : Path RecordStep LogRun.init tr) :
    Always RingHolds LogRun.init tr ↔ AllSteps NotUpAgain LogRun.init tr :=
  @Path.always_iff _ _ RecordStep SheetInv RingHolds NotUpAgain (fun h hs => h.step hs)
    (fun h hr hs => ringHolds_step_iff h hr hs) _ _ h SheetInv.init ringHolds_init

/-- The run with the calls `calls`. -/
def logTrace : LogRun → List NetState → List (NetState × LogRun)
  | _, [] => []
  | s, st :: calls =>
    (st, ⟨s.calls ++ [st], record_log st s.sheet⟩) ::
      logTrace ⟨s.calls ++ [st], record_log st s.sheet⟩ calls

theorem logTrace_path (s : LogRun) (calls : List NetState) :
    Path RecordStep s (logTrace s calls) := by
  induction calls generalizing s with
  | nil => exact .nil s
  | cons st calls ih => exact .cons rfl (ih _)

/-- A state of an interface with the given flags. -/
def NetState.withFlags (flags : Byte) : NetState where
  id := 0
  mode := 0
  ver := 0
  serNetConfig := ⟨0, fun _ => NetInfo.zero,
    ⟨0, ⟨0, ⟨fun _ => 0, fun _ => 0, fun _ => 0⟩⟩, ⟨fun _ => 0, fun _ => 0⟩⟩⟩
  netif := ⟨fun _ => 0, Fin.last 6, flags, 0, 0, 0⟩
  tick := 0
  currentConnectStyle := 2
  conErrPlace := 0
  panelLink := 2
  arp_table := fun _ => ⟨fun _ => 0, fun _ => 0⟩

/-- An interface that is up, and then up without a link. -/
theorem ring_holds_iff_goes_down :
    Always RingHolds LogRun.init (logTrace LogRun.init
      (List.replicate 5 (NetState.withFlags 0x11) ++ [NetState.withFlags 0x01])) := by
  refine (ring_holds_iff (logTrace_path _ _)).2 ⟨nofun, nofun, nofun, nofun, nofun, ?_, trivial⟩
  intro old hold _
  cases hold
  exact ⟨by decide, fun hlink => absurd hlink (by decide)⟩

/-- An interface is down at the first call only. The sixth one uses its slot again, and its
    record says that it is down. -/
theorem ring_stale :
    Path RecordStep LogRun.init (logTrace LogRun.init
        (NetState.withFlags 0 :: List.replicate 5 (NetState.withFlags 0x11))) ∧
      ¬ Always RingHolds LogRun.init (logTrace LogRun.init
        (NetState.withFlags 0 :: List.replicate 5 (NetState.withFlags 0x11))) := by
  refine ⟨logTrace_path _ _, fun h => ?_⟩
  obtain ⟨⟨k, hlt⟩, hk, hrec⟩ := h.last.newest (NetState.withFlags 0x11) rfl
  obtain rfl : k = 0 := Nat.succ.inj hk
  exact absurd (congrArg EachLog.netif_stat hrec) (by decide +revert)

end Abox.Log
