import Abox.Server.Link
import Abox.Server.Send

/-!
# Rebooting without a server

`Abox_thread_entry` (`Abox_exchange.c` lines 293–337) waits five seconds for a
message. While `serHeartTime` is zero it counts the waits that end without one in
`err_times`, and reboots the device at the 241st. `serHeartTime` is set by
`processDataFromServer` (`client.c` line 236) and by a `TCMD_1`, and cleared by
`exitEthStatus` (line 536). Nothing ever sets `err_times` back.

* `idle_reboot`: in a run in which nothing comes from the server after a wait was
  counted, the device reboots only after more than 240 waits in a row without
  anything from the server; every other run has a beginning that can go on to an
  earlier reboot.
* `early_reboot`: a single wait is enough after twenty minutes without a connection
  in the past.
-/

namespace Abox.Server

open Runs

/-- `SERTIMEOUT`. -/
def serTimeout : ℕ := 60 * 2 * 1000

/-- Why the device was rebooted. -/
inductive RebootCause
  | heart
  | idle
  deriving DecidableEq

/-- The state of the link, `serHeartTime`, the static `err_times`, whether the device
    was rebooted, and the number of waits that ended without a message since
    something came from the server. `err_times` never gets past 241. -/
structure IdleLink extends LinkInfo where
  serHeartTime : BitVec 32
  err_times : ℕ
  rebooted : Option RebootCause
  quiet : ℕ

def IdleLink.init : IdleLink := ⟨LinkInfo.init, 0, 0, none, 0⟩

/-- `quitTcpConnect` and `cmd_reboot`. -/
def IdleLink.reboot (s : IdleLink) (cause : RebootCause) : IdleLink :=
  { s with toLinkInfo := quitTcpConnect s.toLinkInfo, rebooted := some cause }

/-- `mq_recv` returns an error at time `rt_tick_get`. -/
def IdleLink.timeout (s : IdleLink) (rt_tick_get : BitVec 32) : IdleLink :=
  let s := { s with quiet := s.quiet + 1 }
  if s.serHeartTime ≠ 0 then
    if rt_tick_get < s.serHeartTime then { s with serHeartTime := rt_tick_get }
    else if serTimeout < (rt_tick_get - s.serHeartTime).toNat then s.reboot .heart
    else s
  else
    let s := { s with err_times := s.err_times + 1 }
    if 12 * 20 < s.err_times then s.reboot .idle else s

/-- `cdma_rev_pack`, as far as it concerns the heartbeat and the link. -/
def IdleLink.cdma_rev_pack (s : IdleLink) (precv : List Byte) (rt_tick_get : BitVec 32) :
    IdleLink :=
  let packcmd := StPackCmd.ofBytes precv
  if IsHead packcmd.soh then
    if packcmd.cmd = tcmd1 then { s with serHeartTime := rt_tick_get }
    else if packcmd.cmd = tcmd19 then
      { s with toLinkInfo := Abox_DEV_USER_GET_SSTATUS s.toLinkInfo precv }
    else s
  else s

/-- `Abox_thread_entry` receives a message or waits in vain; another thread calls
    `processDataFromServer`, `entryEthStatus` or `exitEthStatus`, or sets the style
    of the connection. -/
inductive IdleEvent
  | message (ex_buf : List Byte) (rt_tick_get : BitVec 32)
  | timeout (rt_tick_get : BitVec 32)
  | processDataFromServer (rt_tick_get : BitVec 32)
  | connected (style : CurrentConnectStyle)
  | entryEthStatus
  | exitEthStatus

/-- Something comes from the server. -/
def IdleEvent.FromServer : IdleEvent → Prop
  | .message .. => True
  | .processDataFromServer _ => True
  | _ => False

/-- What an event does. -/
def IdleLink.act (s : IdleLink) : IdleEvent → IdleLink
  | .message ex_buf rt_tick_get => IdleLink.cdma_rev_pack { s with quiet := 0 } ex_buf rt_tick_get
  | .timeout rt_tick_get => s.timeout rt_tick_get
  | .processDataFromServer rt_tick_get => { s with serHeartTime := rt_tick_get, quiet := 0 }
  | .connected style => { s with currentConnectStyle := style }
  | .entryEthStatus => { s with toLinkInfo := Server.entryEthStatus s.toLinkInfo }
  | .exitEthStatus =>
    { s with toLinkInfo := Server.exitEthStatus s.toLinkInfo, serHeartTime := 0 }

/-- One step, `none` after a reboot. -/
def IdleLink.step (s : IdleLink) (e : IdleEvent) : Option IdleLink :=
  if s.rebooted = none then some (s.act e) else none

def IdleLink.Step (s : IdleLink) (e : IdleEvent) (s' : IdleLink) : Prop := s.step e = some s'

/-- The reboot without a heartbeat comes after more than 240 waits in a row. -/
def IdleLate (s : IdleLink) : Prop := s.rebooted = some .idle → 240 < s.quiet

/-- Nothing comes from the server after a wait was counted. -/
def IdleOk (s : IdleLink) (e : IdleEvent) : Prop := e.FromServer → s.err_times = 0

instance : (e : IdleEvent) → Decidable e.FromServer
  | .message .. | .processDataFromServer _ => inferInstanceAs (Decidable True)
  | .timeout _ | .connected _ | .entryEthStatus | .exitEthStatus =>
    inferInstanceAs (Decidable False)

instance (s : IdleLink) (e : IdleEvent) : Decidable (IdleOk s e) :=
  inferInstanceAs (Decidable (_ → _))

/-! ## Steps -/

/-- Every wait that was counted is one since something came from the server. -/
structure IdleInv (s : IdleLink) : Prop where
  err_times_le : s.err_times ≤ s.quiet
  rebooted : s.rebooted = some .idle → 240 < s.err_times

theorem idle_step_iff {s s' : IdleLink} {e : IdleEvent} :
    s.Step e s' ↔ s.rebooted = none ∧ s.act e = s' := by
  unfold IdleLink.Step IdleLink.step
  by_cases h : s.rebooted = none
  · simp [h]
  · simp [h]

/-- What a step does to the counts. -/
inductive IdleEffect (s : IdleLink) (e : IdleEvent) (s' : IdleLink) : Prop
  | fromServer (from_server : e.FromServer) (err_times : s'.err_times = s.err_times)
      (quiet : s'.quiet = 0) (rebooted : s'.rebooted = none)
  | uncounted (from_server : ¬ e.FromServer) (err_times : s'.err_times = s.err_times)
      (quiet : s.quiet ≤ s'.quiet) (rebooted : s'.rebooted ≠ some .idle)
  | counted (from_server : ¬ e.FromServer) (err_times : s'.err_times = s.err_times + 1)
      (quiet : s'.quiet = s.quiet + 1) (few : s'.err_times ≤ 240) (rebooted : s'.rebooted = none)
  | reboot (from_server : ¬ e.FromServer) (err_times : s'.err_times = s.err_times + 1)
      (quiet : s'.quiet = s.quiet + 1) (many : 240 < s'.err_times)
      (rebooted : s'.rebooted = some .idle)

theorem timeout_counted {s : IdleLink} (h0 : s.serHeartTime = 0) (rt_tick_get : BitVec 32)
    (hfew : s.err_times + 1 ≤ 240) :
    s.timeout rt_tick_get = { s with quiet := s.quiet + 1, err_times := s.err_times + 1 } := by
  unfold IdleLink.timeout
  rw [if_neg (not_not.2 h0)]
  exact if_neg (Nat.not_lt.2 hfew)

theorem timeout_reboot {s : IdleLink} (h0 : s.serHeartTime = 0) (rt_tick_get : BitVec 32)
    (hmany : 240 < s.err_times + 1) :
    s.timeout rt_tick_get =
      IdleLink.reboot { s with quiet := s.quiet + 1, err_times := s.err_times + 1 } .idle := by
  unfold IdleLink.timeout
  rw [if_neg (not_not.2 h0)]
  exact if_pos hmany

/-- A wait in vain is counted while there is no heartbeat. -/
theorem timeout_effect {s : IdleLink} (hr : s.rebooted = none) (rt_tick_get : BitVec 32) :
    IdleEffect s (.timeout rt_tick_get) (s.timeout rt_tick_get) := by
  have hnot : ¬ (IdleEvent.timeout rt_tick_get).FromServer := not_false
  by_cases h0 : s.serHeartTime = 0
  · by_cases hmany : 240 < s.err_times + 1
    · rw [timeout_reboot h0 rt_tick_get hmany]
      exact .reboot hnot rfl rfl hmany rfl
    · have hfew := Nat.le_of_not_lt hmany
      rw [timeout_counted h0 rt_tick_get hfew]
      exact .counted hnot rfl rfl hfew hr
  · have hidle : s.rebooted ≠ some .idle := by simp [hr]
    unfold IdleLink.timeout
    rw [if_pos h0]
    split_ifs
    · exact .uncounted hnot rfl (Nat.le_succ _) hidle
    · exact .uncounted hnot rfl (Nat.le_succ _) (by simp [IdleLink.reboot])
    · exact .uncounted hnot rfl (Nat.le_succ _) hidle

/-- A message leaves the counts as they are. -/
theorem cdma_rev_pack_counts (s : IdleLink) (precv : List Byte) (rt_tick_get : BitVec 32) :
    (s.cdma_rev_pack precv rt_tick_get).err_times = s.err_times ∧
      (s.cdma_rev_pack precv rt_tick_get).quiet = s.quiet ∧
      (s.cdma_rev_pack precv rt_tick_get).rebooted = s.rebooted := by
  simp only [IdleLink.cdma_rev_pack]
  split_ifs <;> exact ⟨rfl, rfl, rfl⟩

theorem act_effect {s : IdleLink} (hr : s.rebooted = none) (e : IdleEvent) :
    IdleEffect s e (s.act e) := by
  have hidle : s.rebooted ≠ some .idle := by simp [hr]
  cases e with
  | message ex_buf rt_tick_get =>
    obtain ⟨herr, hquiet, hreb⟩ := cdma_rev_pack_counts { s with quiet := 0 } ex_buf rt_tick_get
    exact .fromServer trivial herr hquiet (hreb.trans hr)
  | timeout rt_tick_get => exact timeout_effect hr rt_tick_get
  | processDataFromServer rt_tick_get => exact .fromServer trivial rfl rfl hr
  | connected style => exact .uncounted not_false rfl le_rfl hidle
  | entryEthStatus => exact .uncounted not_false rfl le_rfl hidle
  | exitEthStatus => exact .uncounted not_false rfl le_rfl hidle

theorem idle_step_effect {s s' : IdleLink} {e : IdleEvent} (hs : s.Step e s') :
    s.rebooted = none ∧ IdleEffect s e s' := by
  obtain ⟨hr, rfl⟩ := idle_step_iff.1 hs
  exact ⟨hr, act_effect hr e⟩

/-- Waits always meet the condition. -/
theorem idleOk_timeouts {s : IdleLink} {tr : List (IdleEvent × IdleLink)}
    (h : ∀ p ∈ tr, p.1 = .timeout 0) : AllSteps IdleOk s tr := by
  induction tr generalizing s with
  | nil => trivial
  | cons p tr ih =>
    rw [List.forall_mem_cons] at h
    refine ⟨fun hfrom => ?_, ih h.2⟩
    rw [h.1] at hfrom
    exact hfrom.elim

theorem IdleInv.step {s s' : IdleLink} {e : IdleEvent} (h : IdleInv s) (hok : IdleOk s e)
    (hs : s.Step e s') : IdleInv s' := by
  have hle := h.err_times_le
  cases (idle_step_effect hs).2 with
  | fromServer hfrom herr _ hreb =>
    have h0 := hok hfrom
    exact ⟨by omega, fun hidle => by simp [hreb] at hidle⟩
  | uncounted _ herr hquiet hreb => exact ⟨by omega, fun hidle => absurd hidle hreb⟩
  | counted _ herr hquiet _ hreb => exact ⟨by omega, fun hidle => by simp [hreb] at hidle⟩
  | reboot _ herr hquiet hmany _ => exact ⟨by omega, fun _ => hmany⟩

theorem IdleInv.late {s : IdleLink} (h : IdleInv s) : IdleLate s :=
  fun hidle => Nat.lt_of_lt_of_le (h.rebooted hidle) h.err_times_le

theorem idle_init_inv : IdleInv IdleLink.init := ⟨le_rfl, fun h => by cases h⟩

/-! ## Going on to a reboot -/

/-- Waits in vain are counted up to 240. -/
theorem exists_timeouts {s : IdleLink} (h0 : s.serHeartTime = 0) (hr : s.rebooted = none) {n : ℕ}
    (hn : s.err_times + n ≤ 240) :
    ∃ tr, Path IdleLink.Step s tr ∧ (∀ p ∈ tr, p.1 = .timeout 0) ∧
      last s tr = { s with err_times := s.err_times + n, quiet := s.quiet + n } := by
  induction n generalizing s with
  | zero => exact ⟨[], .nil s, by simp, rfl⟩
  | succ n ih =>
    have hstep : s.Step (.timeout 0)
        { s with quiet := s.quiet + 1, err_times := s.err_times + 1 } :=
      idle_step_iff.2 ⟨hr, timeout_counted h0 0 (by omega)⟩
    obtain ⟨tr, hp, hall, hlast⟩ := ih (s := { s with
      quiet := s.quiet + 1, err_times := s.err_times + 1 }) h0 hr (by show _ + 1 + n ≤ 240; omega)
    refine ⟨(.timeout 0, _) :: tr, .cons hstep hp, ?_, ?_⟩
    · simpa using hall
    · show last _ tr = _
      rw [hlast]
      simp only [Nat.add_assoc, Nat.add_comm 1 n]

/-- Without a heartbeat, one wait more than are left to 240 reboots the device. -/
theorem exists_reboot {s : IdleLink} (h0 : s.serHeartTime = 0) (hr : s.rebooted = none)
    (hmax : s.err_times ≤ 240) :
    ∃ tr, Path IdleLink.Step s tr ∧ (∀ p ∈ tr, p.1 = .timeout 0) ∧
      (last s tr).rebooted = some .idle ∧
      (last s tr).quiet = s.quiet + (240 - s.err_times) + 1 := by
  obtain ⟨tr, hp, hall, hlast⟩ := exists_timeouts h0 hr (n := 240 - s.err_times) (by omega)
  set u : IdleLink := { s with
    err_times := s.err_times + (240 - s.err_times)
    quiet := s.quiet + (240 - s.err_times) }
  have hu : u.serHeartTime = 0 := h0
  have hmany : 240 < u.err_times + 1 := by
    show 240 < s.err_times + (240 - s.err_times) + 1
    omega
  have hfinal : (last s tr).Step (.timeout 0)
      (IdleLink.reboot { u with quiet := u.quiet + 1, err_times := u.err_times + 1 } .idle) := by
    rw [hlast]
    exact idle_step_iff.2 ⟨hr, timeout_reboot hu 0 hmany⟩
  refine ⟨_, hp.snoc hfinal, ?_, ?_, ?_⟩
  · intro p hmem
    rcases List.mem_append.1 hmem with hmem | hmem
    · exact hall p hmem
    · obtain rfl := List.mem_singleton.1 hmem
      rfl
  · rw [last_append]
    rfl
  · rw [last_append]
    rfl

/-- Once more waits were counted than there were since something came from the server,
    a disconnect and further waits reboot the device too early. -/
theorem exists_early {s : IdleLink} (hr : s.rebooted = none) (h : s.quiet < s.err_times)
    (hmax : s.err_times ≤ 240) :
    ∃ post, Path IdleLink.Step s post ∧ (∀ p ∈ post, ¬ p.1.FromServer) ∧
      ¬ IdleLate (last s post) := by
  set t : IdleLink := { s with
    toLinkInfo := Server.exitEthStatus s.toLinkInfo
    serHeartTime := 0 }
  have hexit : s.Step .exitEthStatus t := idle_step_iff.2 ⟨hr, rfl⟩
  obtain ⟨tr, hp, hall, hidle, hquiet⟩ := exists_reboot (s := t) rfl hr hmax
  refine ⟨_, .cons hexit hp, ?_, ?_⟩
  · intro p hmem
    rcases List.mem_cons.1 hmem with rfl | hmem
    · exact not_false
    · rw [hall p hmem]
      exact not_false
  · intro hlate
    have hlong := hlate hidle
    have hshort : (last t tr).quiet = s.quiet + (240 - s.err_times) + 1 := hquiet
    change 240 < (last t tr).quiet at hlong
    omega

/-- Before a reboot at most 240 waits were counted. -/
theorem err_times_le_step {s s' : IdleLink} {e : IdleEvent}
    (h : s.rebooted = none → s.err_times ≤ 240) (hs : s.Step e s') :
    s'.rebooted = none → s'.err_times ≤ 240 := by
  obtain ⟨hr, heffect⟩ := idle_step_effect hs
  have hle := h hr
  intro hr'
  cases heffect with
  | fromServer _ herr => omega
  | uncounted _ herr => omega
  | counted _ _ _ hfew => exact hfew
  | reboot _ _ _ _ hreb => simp [hreb] at hr'

/-- What comes from the server sets the number of waits back, but not their count. -/
theorem early_of_not_idleOk {s s' : IdleLink} {e : IdleEvent} (hok : ¬ IdleOk s e)
    (hs : s.Step e s') :
    s'.rebooted = none ∧ s'.quiet < s'.err_times ∧ s'.err_times = s.err_times := by
  obtain ⟨hfrom, hpos⟩ : e.FromServer ∧ s.err_times ≠ 0 := by simpa [IdleOk] using hok
  cases (idle_step_effect hs).2 with
  | fromServer _ herr hquiet hreb => exact ⟨hreb, by omega, herr⟩
  | uncounted hnot => exact absurd hfrom hnot
  | counted hnot => exact absurd hfrom hnot
  | reboot hnot => exact absurd hfrom hnot

/-! ## Runs -/

/-- In every run in which nothing comes from the server after a wait was counted, the
    reboot without a heartbeat comes late. Every other run has a beginning that can go
    on, without anything from the server, to one that comes too early. -/
theorem idle_reboot {tr : List (IdleEvent × IdleLink)}
    (hrun : Path IdleLink.Step IdleLink.init tr) :
    (AllSteps IdleOk IdleLink.init tr → Always IdleLate IdleLink.init tr) ∧
    (¬ AllSteps IdleOk IdleLink.init tr → ∃ pre post, pre <+: tr ∧
      Path IdleLink.Step IdleLink.init (pre ++ post) ∧ (∀ p ∈ post, ¬ p.1.FromServer) ∧
      ¬ Always IdleLate IdleLink.init (pre ++ post)) := by
  constructor
  · intro hok
    exact (hrun.always_of_steps IdleInv IdleInv.step idle_init_inv hok).mono fun _ => IdleInv.late
  · intro hok
    obtain ⟨pre, a, t, hpre, ha⟩ := exists_step_of_not_allSteps hok
    obtain ⟨rest, htr⟩ := hpre
    rw [← htr] at hrun
    have hfirst := (path_append.1 hrun).1
    obtain ⟨hp, hstep⟩ := path_append.1 hfirst
    cases hstep with
    | cons hstep _ =>
      have hmax := (hp.always (fun s => s.rebooted = none → s.err_times ≤ 240)
        err_times_le_step (fun _ => Nat.zero_le _)).last
      obtain ⟨hr, hlt, heq⟩ := early_of_not_idleOk ha hstep
      obtain ⟨post, hpost, hquiet, hlate⟩ := exists_early hr hlt
        (heq ▸ hmax (idle_step_effect hstep).1)
      refine ⟨pre ++ [(a, t)], post, ⟨rest, htr⟩, path_append.2 ⟨hfirst, ?_⟩, hquiet, ?_⟩
      · rw [last_append]
        exact hpost
      · intro halways
        have := halways.last
        rw [last_append, last_append] at this
        exact hlate this

/-- A connection that comes up before a wait was counted, and is lost again: the
    device is rebooted at the 241st wait. -/
theorem idle_reboot_disconnected :
    ∃ tr, Path IdleLink.Step IdleLink.init tr ∧ (last IdleLink.init tr).rebooted = some .idle ∧
      Always IdleLate IdleLink.init tr := by
  obtain ⟨pre, hpre, hok, h0, hr, herr⟩ := exists_exec
    (P := fun tr => AllSteps IdleOk IdleLink.init tr ∧
      (last IdleLink.init tr).serHeartTime = 0 ∧ (last IdleLink.init tr).rebooted = none ∧
      (last IdleLink.init tr).err_times = 0)
    (show (exec IdleLink.step IdleLink.init
      [.entryEthStatus, .processDataFromServer 7, .exitEthStatus]).any _ = true by decide)
  have hpath : Path IdleLink.Step IdleLink.init pre := exec_path id hpre
  obtain ⟨waits, hwaits, hall, hidle, -⟩ := exists_reboot h0 hr (by rw [herr]; decide)
  have hrun := path_append.2 ⟨hpath, hwaits⟩
  refine ⟨_, hrun, ?_, (idle_reboot hrun).1 (allSteps_append.2 ⟨hok, idleOk_timeouts hall⟩)⟩
  rw [last_append]
  exact hidle

/-- After 240 waits without a connection, some data from the server and a disconnect,
    the first wait in vain reboots the device. -/
theorem early_reboot :
    ∃ tr, Path IdleLink.Step IdleLink.init tr ∧ (last IdleLink.init tr).rebooted = some .idle ∧
      (last IdleLink.init tr).quiet = 1 ∧ ¬ Always IdleLate IdleLink.init tr := by
  obtain ⟨tr, hp, -, hlast⟩ := exists_timeouts (s := IdleLink.init) rfl rfl (n := 240) (by decide)
  set s : IdleLink := { IdleLink.init with
    err_times := IdleLink.init.err_times + 240
    quiet := IdleLink.init.quiet + 240 }
  have hpost : Path IdleLink.Step s _ :=
    exec_path id (show exec IdleLink.step s
      [.entryEthStatus, .processDataFromServer 7, .exitEthStatus, .timeout 9] = some _ from rfl)
  have hrun := path_append.2 ⟨hp, hlast ▸ hpost⟩
  refine ⟨_, hrun, ?_, ?_, ?_⟩
  · rw [last_append, hlast]
    rfl
  · rw [last_append, hlast]
    rfl
  · intro halways
    have hlate := halways.last
    rw [last_append, hlast] at hlate
    exact absurd (hlate rfl) (by decide)

end Abox.Server
