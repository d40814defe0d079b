import Abox.Lib.Runs

/-!
# The watchdog

Model of `wwdg.c` (`applications/wwdg.c` lines 6–88) with `monitor_thread_entry`
(`applications/monitor.c` lines 8–25): a timer calls `IWDG_Feed` every 100 ticks, which
reloads the independent watchdog unless the monitor thread, one of the lowest priority, has not
run for more than 10 s. The watchdog resets the device when it has not been reloaded for some
time `tout`.

* `watchdog_quiet`: as long as `monitorTick` is never older than 10 s while the check is on, each
  call reloads the watchdog, also when the tick count wraps around.
* `watchdog_fires_iff`: with the check on, a device whose monitor thread does not run any more is
  reset, unless `monitorTick` is 0 or becomes 0: the count is 0 in one tick out of 2 ^ 32, and
  then the check is off for good.
-/

namespace Abox.Device

open Runs

/-! ## Model -/

/-- `WWDG_STATUS`. -/
inductive WwdgStatus
  | wwdgOpen
  | wwdgClose
  deriving DecidableEq

/-- The variables of the watchdog; `timer` is what is left of the period of `IWDG_timer`,
    `unfed` the age of the last reload, and `age` that of `monitorTick`. -/
structure Watchdog where
  wwdgStatus : WwdgStatus
  monitorTick : BitVec 32
  rtTick : BitVec 32
  timer : ℕ
  unfed : ℕ
  age : ℕ

namespace Watchdog

/-- `wwdg_auto_close`. -/
def wwdg_auto_close (s : Watchdog) : Watchdog := { s with wwdgStatus := .wwdgClose }

/-- `wwdg_auto_open`. -/
def wwdg_auto_open (s : Watchdog) : Watchdog := { s with wwdgStatus := .wwdgOpen }

/-- `IWDG_ReloadCounter`. -/
def reloadCounter (s : Watchdog) : Watchdog := { s with unfed := 0 }

/-- `monitorTick = rt_tick_get()`. -/
def monitor (s : Watchdog) : Watchdog := { s with monitorTick := s.rtTick, age := 0 }

/-- `IWDG_Feed` behind the first check (lines 63–66). -/
def feedTail (s : Watchdog) : Watchdog :=
  if s.wwdgStatus = .wwdgOpen then s.monitor.reloadCounter else s.reloadCounter

/-- `IWDG_Feed`. -/
def IWDG_Feed (s : Watchdog) : Watchdog :=
  if s.monitorTick ≠ 0 ∧ s.wwdgStatus = .wwdgClose then
    if s.rtTick.toNat > s.monitorTick.toNat then
      if (s.rtTick - s.monitorTick).toNat > 10 * 1000 then s else s.feedTail
    else s.monitor.feedTail
  else s.feedTail

/-- The variables after `rt_thread_IWDG_init`. -/
def init (monitorTick rtTick : BitVec 32) (age : ℕ) : Watchdog :=
  { wwdgStatus := .wwdgClose
    monitorTick := monitorTick
    rtTick := rtTick
    timer := 100
    unfed := 0
    age := age }

/-- `rt_tick_increase`, with the timer if it is due. -/
def tick (s : Watchdog) : Watchdog :=
  let s := { s with rtTick := s.rtTick + 1, unfed := s.unfed + 1, age := s.age + 1 }
  if s.timer = 1 then { s with timer := 100 }.IWDG_Feed else { s with timer := s.timer - 1 }

end Watchdog

/-! ## Ticks without a call -/

namespace Watchdog

variable {s s' : Watchdog}

theorem iterate_tick (k : ℕ) (s : Watchdog) : tick^[k + 1] s = (tick^[k] s).tick :=
  Function.iterate_succ_apply' tick k s

theorem toNat_add_one {a : BitVec 32} (h : a.toNat + 1 < 2 ^ 32) : (a + 1).toNat = a.toNat + 1 := by
  rw [BitVec.toNat_add]
  show (_ + 1) % _ = _
  omega

theorem ofNat_add_one (k : ℕ) : BitVec.ofNat 32 k + 1 = BitVec.ofNat 32 (k + 1) :=
  (BitVec.ofNat_add k 1).symm

/-- Up to the next call only the clocks change. -/
theorem iterate_tick_of_lt {k : ℕ} (h : k < s.timer) :
    tick^[k] s = { s with
      rtTick := s.rtTick + BitVec.ofNat 32 k
      timer := s.timer - k
      unfed := s.unfed + k
      age := s.age + k } := by
  induction k with
  | zero => simp
  | succ k ih =>
    rw [iterate_tick, ih (by omega), tick]
    dsimp only
    rw [if_neg (by omega), Nat.sub_sub, Nat.add_assoc, Nat.add_assoc, BitVec.add_assoc]
    rw [ofNat_add_one]

/-- The next call. -/
theorem iterate_tick_timer (h : 1 ≤ s.timer) :
    tick^[s.timer] s = IWDG_Feed { s with
      rtTick := s.rtTick + BitVec.ofNat 32 s.timer
      timer := 100
      unfed := s.unfed + s.timer
      age := s.age + s.timer } := by
  obtain ⟨k, hk⟩ : ∃ k, s.timer = k + 1 := ⟨s.timer - 1, by omega⟩
  rw [hk, iterate_tick, iterate_tick_of_lt (by omega), tick]
  dsimp only
  rw [if_pos (by omega)]
  rw [BitVec.add_assoc, ofNat_add_one]
  rfl

/-! ## A device whose monitor thread runs -/

/-- What can happen. -/
inductive Act
  | tick
  | monitor
  | autoOpen
  | autoClose
  deriving DecidableEq

/-- The variables behind an act. -/
def step (s : Watchdog) : Act → Watchdog
  | .tick => s.tick
  | .monitor => s.monitor
  | .autoOpen => s.wwdg_auto_open
  | .autoClose => s.wwdg_auto_close

/-- `monitorTick` is not older than 10 s at a tick with the check on. -/
def Healthy (s : Watchdog) (a : Act) : Prop :=
  a = .tick → s.wwdgStatus = .wwdgClose → s.age + 1 ≤ 10 * 1000

instance (s : Watchdog) (a : Act) : Decidable (Healthy s a) :=
  inferInstanceAs (Decidable (a = .tick → s.wwdgStatus = .wwdgClose → s.age + 1 ≤ 10 * 1000))

/-- The watchdog is reloaded in time, and `age` is the age of `monitorTick`. -/
structure Fed (s : Watchdog) : Prop where
  timer : 1 ≤ s.timer
  unfed : s.unfed + s.timer = 100
  age : s.monitorTick ≠ 0 → s.rtTick = s.monitorTick + BitVec.ofNat 32 s.age

theorem Fed.monitor (h : Fed s) : Fed s.monitor :=
  ⟨h.timer, h.unfed, fun _ => (BitVec.add_zero s.rtTick).symm⟩

/-- A call that comes to line 63 reloads the watchdog. -/
theorem fed_feedTail (htimer : s.timer = 100)
    (hage : s.monitorTick ≠ 0 → s.rtTick = s.monitorTick + BitVec.ofNat 32 s.age) :
    Fed s.feedTail := by
  unfold feedTail
  split_ifs
  · exact ⟨by show 1 ≤ s.timer; omega, by show 0 + s.timer = 100; omega,
      fun _ => (BitVec.add_zero s.rtTick).symm⟩
  · exact ⟨by show 1 ≤ s.timer; omega, by show 0 + s.timer = 100; omega, hage⟩

/-- A call with a `monitorTick` that is not too old. -/
theorem fed_feed (htimer : s.timer = 100)
    (hage : s.monitorTick ≠ 0 → s.rtTick = s.monitorTick + BitVec.ofNat 32 s.age)
    (hyoung : s.wwdgStatus = .wwdgClose → s.age ≤ 10 * 1000) : Fed s.IWDG_Feed := by
  unfold IWDG_Feed
  by_cases hcheck : s.monitorTick ≠ 0 ∧ s.wwdgStatus = .wwdgClose
  · have hold : (s.rtTick - s.monitorTick).toNat = s.age := by
      have hsmall := hyoung hcheck.2
      rw [hage hcheck.1, BitVec.add_comm, BitVec.add_sub_cancel, BitVec.toNat_ofNat]
      omega
    rw [if_pos hcheck]
    split_ifs with hlater hlong
    · have := hyoung hcheck.2
      omega
    · exact fed_feedTail htimer hage
    · exact fed_feedTail htimer fun _ => (BitVec.add_zero s.rtTick).symm
  · rw [if_neg hcheck]
    exact fed_feedTail htimer hage

theorem Fed.tick (h : Fed s) (hok : s.wwdgStatus = .wwdgClose → s.age + 1 ≤ 10 * 1000) :
    Fed s.tick := by
  have htimer := h.timer
  have hunfed := h.unfed
  have hage : s.monitorTick ≠ 0 →
      s.rtTick + 1 = s.monitorTick + BitVec.ofNat 32 (s.age + 1) := fun hne => by
    rw [h.age hne, BitVec.add_assoc, ofNat_add_one]
  unfold Watchdog.tick
  dsimp only
  split_ifs with hdue
  · exact fed_feed rfl hage hok
  · exact ⟨by show 1 ≤ s.timer - 1; omega, by show s.unfed + 1 + (s.timer - 1) = 100; omega, hage⟩

theorem Fed.step {a : Act} (h : Fed s) (hok : Healthy s a) : Fed (s.step a) := by
  cases a with
  | tick => exact h.tick (hok rfl)
  | monitor => exact h.monitor
  | autoOpen => exact ⟨h.timer, h.unfed, h.age⟩
  | autoClose => exact ⟨h.timer, h.unfed, h.age⟩

theorem fed_init {monitorTick rtTick : BitVec 32} {age : ℕ}
    (h : monitorTick ≠ 0 → rtTick = monitorTick + BitVec.ofNat 32 age) :
    Fed (init monitorTick rtTick age) := ⟨Nat.one_le_ofNat, rfl, h⟩

end Watchdog

open Watchdog in
/-- The watchdog of a device whose monitor thread runs is reloaded every 100 ticks. -/
theorem watchdog_quiet {monitorTick rtTick : BitVec 32} {age : ℕ}
    (h : monitorTick ≠ 0 → rtTick = monitorTick + BitVec.ofNat 32 age)
    {tr : List (Act × Watchdog)}
    (hp : Path (fun s a s' => s' = s.step a) (init monitorTick rtTick age) tr)
    (hok : AllSteps Healthy (init monitorTick rtTick age) tr) :
    Always (fun s => s.unfed < 100) (init monitorTick rtTick age) tr := by
  refine (hp.always_of_steps Fed ?_ (fed_init h) hok).mono fun s hs => ?_
  · rintro s s' a hs hok rfl
    exact hs.step hok
  · have htimer := hs.timer
    have hunfed := hs.unfed
    omega

/-- Across the end of the tick count: two calls, one with the check open, and the monitor thread
    runs once. -/
def wrapActs : List Watchdog.Act :=
  List.replicate 99 .tick ++ [.monitor] ++ List.replicate 61 .tick ++ [.autoOpen] ++
    List.replicate 45 .tick ++ [.autoClose]

open Watchdog in
theorem watchdog_quiet_wrap : ∃ tr,
    exec (fun s a => some (s.step a)) (init 0xFFFFFF00 0xFFFFFF0F 15) wrapActs = some tr ∧
      (last (init 0xFFFFFF00 0xFFFFFF0F 15) tr).unfed = 5 ∧
      Always (fun s => s.unfed < 100) (init 0xFFFFFF00 0xFFFFFF0F 15) tr := by
  obtain ⟨tr, htr, hok, hunfed⟩ := exists_exec (P := fun tr =>
      AllSteps Healthy (init 0xFFFFFF00 0xFFFFFF0F 15) tr ∧
        (last (init 0xFFFFFF00 0xFFFFFF0F 15) tr).unfed = 5)
    (show (exec (fun s a => some (s.step a)) (init 0xFFFFFF00 0xFFFFFF0F 15) wrapActs).any _ = true
      by decide +kernel)
  have hpath : Path (fun s a s' => s' = s.step a) (init 0xFFFFFF00 0xFFFFFF0F 15) tr :=
    exec_path (fun h => (Option.some.inj h).symm) htr
  exact ⟨tr, htr, hunfed, watchdog_quiet (by decide) hpath hok⟩

/-! ## A device whose monitor thread does not run -/

namespace Watchdog

variable {s : Watchdog}

/-- The state `a` ticks after `monitorTick` was set to `m`; `last` is the age at which the last
    call reloads the watchdog. -/
structure Phase (m : BitVec 32) (last a : ℕ) (s : Watchdog) : Prop where
  closed : s.wwdgStatus = .wwdgClose
  monitorTick : s.monitorTick = m
  rtTick : s.rtTick.toNat = m.toNat + a
  timer : 1 ≤ s.timer ∧ s.timer ≤ 100
  due : (a + s.timer) % 100 = last % 100
  unfed : s.unfed = if a ≤ last then 100 - s.timer else a - last

theorem feedTail_closed (h : s.wwdgStatus = .wwdgClose) : s.feedTail = { s with unfed := 0 } := by
  unfold feedTail
  rw [if_neg (by rw [h]; exact nofun)]
  rfl

theorem Phase.tick {m : BitVec 32} {last a : ℕ} (h : Phase m last a s) (hm : m ≠ 0)
    (hlast : last ≤ 10 * 1000) (hlast' : 10 * 1000 < last + 100)
    (hwrap : m.toNat + (a + 1) < 2 ^ 32) : Phase m last (a + 1) s.tick := by
  obtain ⟨hclosed, hmonitor, hrt, ⟨hpos, hle⟩, hdue, hunfed⟩ := h
  have hnext : (s.rtTick + 1).toNat = m.toNat + (a + 1) := by
    rw [toNat_add_one (by omega)]
    omega
  unfold Watchdog.tick
  dsimp only
  by_cases htimer : s.timer = 1
  · have hold : (s.rtTick + 1 - m).toNat = a + 1 := by
      rw [BitVec.toNat_sub_of_le (by rw [BitVec.le_def]; omega), hnext]
      omega
    have hcheck : m ≠ 0 ∧ s.wwdgStatus = .wwdgClose := ⟨hm, hclosed⟩
    rw [if_pos htimer]
    unfold IWDG_Feed
    rw [hmonitor, if_pos hcheck, if_pos (by dsimp only; omega)]
    dsimp only
    rw [hold]
    by_cases hlong : a + 1 > 10 * 1000
    · rw [if_pos hlong]
      refine ⟨hclosed, rfl, hnext, ⟨Nat.one_le_ofNat, le_refl 100⟩, ?_, ?_⟩
      · dsimp only
        omega
      · dsimp only
        split_ifs at hunfed ⊢ <;> omega
    · rw [if_neg hlong, feedTail_closed (by exact hclosed)]
      refine ⟨hclosed, rfl, hnext, ⟨Nat.one_le_ofNat, le_refl 100⟩, ?_, ?_⟩
      · dsimp only
        omega
      · dsimp only
        rw [if_pos (by omega)]
  · rw [if_neg htimer]
    refine ⟨hclosed, hmonitor, hnext, ⟨?_, ?_⟩, ?_, ?_⟩ <;> dsimp only
    · omega
    · omega
    · omega
    · split_ifs at hunfed ⊢ <;> omega

/-- As long as the tick count does not wrap around. -/
theorem Phase.iterate {m : BitVec 32} {last a : ℕ} (h : Phase m last a s) (hm : m ≠ 0)
    (hlast : last ≤ 10 * 1000) (hlast' : 10 * 1000 < last + 100) (k : ℕ)
    (hwrap : m.toNat + (a + k) < 2 ^ 32) : Phase m last (a + k) (Watchdog.tick^[k] s) := by
  induction k with
  | zero => exact h
  | succ k ih =>
    rw [iterate_tick]
    exact (ih (by omega)).tick hm hlast hlast' (by omega)

theorem Phase.fires {m : BitVec 32} {last tout : ℕ} (h : Phase m last 0 s) (hm : m ≠ 0)
    (hlast : last ≤ 10 * 1000) (hlast' : 10 * 1000 < last + 100) (htout : 100 ≤ tout)
    (hwrap : m.toNat + (last + tout) < 2 ^ 32) : tout ≤ (Watchdog.tick^[last + tout] s).unfed := by
  have hend := (h.iterate hm hlast hlast' (last + tout) (by omega)).unfed
  rw [if_neg (by omega)] at hend
  omega

/-- The age at which the last call reloads the watchdog. -/
def lastFeed (s : Watchdog) : ℕ := s.timer + (10 * 1000 - s.timer) / 100 * 100

theorem phase_start (hclosed : s.wwdgStatus = .wwdgClose) (hfresh : s.monitorTick = s.rtTick)
    (htimer : 1 ≤ s.timer) (hunfed : s.unfed + s.timer = 100) :
    Phase s.rtTick s.lastFeed 0 s := by
  refine ⟨hclosed, hfresh, rfl, ⟨htimer, by omega⟩, ?_, ?_⟩
  · unfold lastFeed
    omega
  · rw [if_pos (Nat.zero_le _)]
    omega

/-- The check is off, and the watchdog is reloaded by every call. -/
structure Off (s : Watchdog) : Prop where
  monitorTick : s.monitorTick = 0
  closed : s.wwdgStatus = .wwdgClose
  timer : 1 ≤ s.timer
  unfed : s.unfed + s.timer = 100

theorem Off.tick (h : Off s) : Off s.tick := by
  obtain ⟨hzero, hclosed, htimer, hunfed⟩ := h
  unfold Watchdog.tick
  dsimp only
  split_ifs with hdue
  · unfold IWDG_Feed
    rw [if_neg (fun hcheck => hcheck.1 hzero), feedTail_closed (by exact hclosed)]
    exact ⟨hzero, hclosed, by show 1 ≤ 100; omega, by show 0 + 100 = 100; rfl⟩
  · exact ⟨hzero, hclosed, by show 1 ≤ s.timer - 1; omega,
      by show s.unfed + 1 + (s.timer - 1) = 100; omega⟩

theorem Off.iterate (h : Off s) (k : ℕ) : Off (Watchdog.tick^[k] s) := by
  induction k with
  | zero => exact h
  | succ k ih =>
    rw [iterate_tick]
    exact ih.tick

theorem Off.unfed_lt (h : Off s) : s.unfed < 100 := by
  have htimer := h.timer
  have hunfed := h.unfed
  omega

/-- The ticks until the tick count is 0. -/
def untilWrap (s : Watchdog) : ℕ := 2 ^ 32 - s.rtTick.toNat

/-- `monitorTick` is 0, or a call sets it to 0 when the tick count wraps around, before the
    watchdog resets the device. -/
def Blind (tout : ℕ) (s : Watchdog) : Prop :=
  s.rtTick = 0 ∨ (s.untilWrap % 100 = s.timer % 100 ∧ s.untilWrap ≤ s.lastFeed + tout)

/-- The first call behind the wrap of the tick count sets `monitorTick` anew. -/
theorem Phase.wrap {m : BitVec 32} {last a : ℕ} (h : Phase m last a s)
    (hend : m.toNat + a + 1 = 2 ^ 32) (hm : 100 < m.toNat) :
    Watchdog.tick^[s.timer] s = { s with
      monitorTick := BitVec.ofNat 32 (s.timer - 1)
      rtTick := BitVec.ofNat 32 (s.timer - 1)
      timer := 100
      unfed := 0
      age := 0 } := by
  obtain ⟨hclosed, hmonitor, hrt, ⟨hpos, hle⟩, -, -⟩ := h
  have hnow : s.rtTick + BitVec.ofNat 32 s.timer = BitVec.ofNat 32 (s.timer - 1) := by
    apply BitVec.eq_of_toNat_eq
    rw [BitVec.toNat_add, BitVec.toNat_ofNat, BitVec.toNat_ofNat]
    omega
  have hlater : ¬ (BitVec.ofNat 32 (s.timer - 1)).toNat > s.monitorTick.toNat := by
    rw [hmonitor, BitVec.toNat_ofNat]
    omega
  have hne : s.monitorTick ≠ 0 := by
    intro hzero
    rw [hmonitor] at hzero
    rw [hzero] at hm
    exact absurd hm (by decide)
  rw [iterate_tick_timer hpos, hnow]
  unfold IWDG_Feed
  rw [if_pos ⟨hne, hclosed⟩, if_neg hlater, feedTail_closed (by exact hclosed)]
  rfl

/-- A starved device, up to the wrap of the tick count. -/
theorem Phase.unfed_lt {m : BitVec 32} {last a tout : ℕ} (h : Phase m last a s)
    (htout : 100 ≤ tout) (ha : a < last + tout) : s.unfed < tout := by
  obtain ⟨hpos, hle⟩ := h.timer
  have hunfed := h.unfed
  split_ifs at hunfed <;> omega

theorem lastFeed_le (h : s.timer ≤ 100) :
    s.lastFeed ≤ 10 * 1000 ∧ 10 * 1000 < s.lastFeed + 100 := by
  unfold lastFeed
  omega

theorem iterate_tick_add (j k : ℕ) (s : Watchdog) :
    tick^[j + k] s = tick^[j] (tick^[k] s) := Function.iterate_add_apply tick j k s

theorem untilWrap_add (s : Watchdog) : s.rtTick.toNat + s.untilWrap = 2 ^ 32 := by
  have := s.rtTick.isLt
  unfold untilWrap
  omega

theorem off_of_zero (hzero : s.rtTick = 0) (hclosed : s.wwdgStatus = .wwdgClose)
    (hfresh : s.monitorTick = s.rtTick) (htimer : 1 ≤ s.timer) (hunfed : s.unfed + s.timer = 100) :
    Off s := ⟨hfresh.trans hzero, hclosed, htimer, hunfed⟩

/-- With the check off, the device is never reset. -/
theorem Blind.unfed_lt {tout : ℕ} (h : Blind tout s) (htout : 100 ≤ tout) (hmax : tout < 2 ^ 31)
    (hclosed : s.wwdgStatus = .wwdgClose) (hfresh : s.monitorTick = s.rtTick)
    (htimer : 1 ≤ s.timer) (hunfed : s.unfed + s.timer = 100) (k : ℕ) :
    (tick^[k] s).unfed < tout := by
  by_cases hzero : s.rtTick = 0
  · have hoff := (off_of_zero hzero hclosed hfresh htimer hunfed).iterate k
    exact hoff.unfed_lt.trans_le htout
  obtain ⟨hdue, hsoon⟩ := h.resolve_left hzero
  obtain ⟨hlast, hlast'⟩ := lastFeed_le (s := s) (by omega)
  have hphase := phase_start hclosed hfresh htimer hunfed
  have hwrap := s.untilWrap_add
  have hlt := s.rtTick.isLt
  by_cases hk : k < s.untilWrap
  · have hnow := hphase.iterate hzero hlast hlast' k (by omega)
    exact hnow.unfed_lt htout (by omega)
  · -- the call in the tick in which the count is 0
    have hend := hphase.iterate hzero hlast hlast' (s.untilWrap - 1) (by omega)
    have hone : (tick^[s.untilWrap - 1] s).timer = 1 := by
      have hphase' := hend.due
      have htimer' := hend.timer
      have hstart := hphase.due
      omega
    have hzeroed := hend.wrap (by omega) (by omega)
    rw [hone] at hzeroed
    have hoff : Off (tick^[1] (tick^[s.untilWrap - 1] s)) := by
      rw [hzeroed]
      exact ⟨rfl, hend.closed, Nat.one_le_ofNat, rfl⟩
    have hiter := hoff.iterate (k - s.untilWrap)
    rw [← iterate_tick_add, ← iterate_tick_add,
      show k - s.untilWrap + 1 + (s.untilWrap - 1) = k by omega] at hiter
    exact hiter.unfed_lt.trans_le htout

/-- With the check on, it is. -/
theorem exists_unfed {tout : ℕ} (h : ¬ Blind tout s) (htout : 100 ≤ tout) (hmax : tout < 2 ^ 31)
    (hclosed : s.wwdgStatus = .wwdgClose) (hfresh : s.monitorTick = s.rtTick)
    (htimer : 1 ≤ s.timer) (hunfed : s.unfed + s.timer = 100) :
    ∃ k ≤ 20100 + 2 * tout, tout ≤ (tick^[k] s).unfed := by
  have hzero : s.rtTick ≠ 0 := fun hzero => h (Or.inl hzero)
  obtain ⟨hlast, hlast'⟩ := lastFeed_le (s := s) (by omega)
  have hphase := phase_start hclosed hfresh htimer hunfed
  have hwrap := s.untilWrap_add
  have hlt := s.rtTick.isLt
  by_cases hsoon : s.untilWrap ≤ s.lastFeed + tout
  · have hnotdue : s.untilWrap % 100 ≠ s.timer % 100 := fun hdue => h (Or.inr ⟨hdue, hsoon⟩)
    have hend := hphase.iterate hzero hlast hlast' (s.untilWrap - 1) (by omega)
    obtain ⟨hpos, hle⟩ := hend.timer
    have hdue := hend.due
    have hstart := hphase.due
    by_cases hlate : tout ≤ (tick^[s.untilWrap - 1] s).unfed +
        ((tick^[s.untilWrap - 1] s).timer - 1)
    · -- the watchdog is faster than the next call
      refine ⟨(tick^[s.untilWrap - 1] s).timer - 1 + (s.untilWrap - 1), by omega, ?_⟩
      rw [iterate_tick_add, iterate_tick_of_lt (by omega)]
      exact hlate
    · -- the next call sets `monitorTick`, and the 10 s start again
      have hset := hend.wrap (by omega) (by omega)
      generalize hs' : tick^[(tick^[s.untilWrap - 1] s).timer] (tick^[s.untilWrap - 1] s) = s'
        at hset
      have hrt : s'.rtTick = BitVec.ofNat 32 ((tick^[s.untilWrap - 1] s).timer - 1) := by rw [hset]
      have hfresh' : s'.monitorTick = s'.rtTick := by rw [hset]
      have htimer' : s'.timer = 100 := by rw [hset]
      have hunfed' : s'.unfed = 0 := by rw [hset]
      have hclosed' : s'.wwdgStatus = .wwdgClose := by
        rw [hset]
        exact hend.closed
      have hnat : s'.rtTick.toNat = (tick^[s.untilWrap - 1] s).timer - 1 := by
        rw [hrt, BitVec.toNat_ofNat]
        omega
      have hne : s'.rtTick ≠ 0 := by
        intro hzero'
        have hnone : (0 : BitVec 32).toNat = 0 := rfl
        rw [hzero'] at hnat
        omega
      obtain ⟨hlast1, hlast1'⟩ := lastFeed_le (s := s') (by omega)
      have hphase' := phase_start hclosed' hfresh' (by omega) (by omega)
      have hfires := hphase'.fires hne hlast1 hlast1' htout (by omega)
      refine ⟨s'.lastFeed + tout + ((tick^[s.untilWrap - 1] s).timer + (s.untilWrap - 1)),
        by omega, ?_⟩
      rw [iterate_tick_add (s'.lastFeed + tout), iterate_tick_add _ (s.untilWrap - 1), hs']
      exact hfires
  · exact ⟨s.lastFeed + tout, by omega, hphase.fires hzero hlast hlast' htout (by omega)⟩

end Watchdog

open Watchdog in
/-- While the check is on, and counted from the last run of the monitor thread: a device whose
    monitor thread does not run any more is reset if and only if `monitorTick` neither is nor
    becomes 0, and then soon. -/
theorem watchdog_fires_iff {s : Watchdog} {tout : ℕ} (htout : 100 ≤ tout) (hmax : tout < 2 ^ 31)
    (hclosed : s.wwdgStatus = .wwdgClose) (hfresh : s.monitorTick = s.rtTick)
    (htimer : 1 ≤ s.timer) (hunfed : s.unfed + s.timer = 100) :
    ((∃ k, tout ≤ (tick^[k] s).unfed) ↔ ¬ Blind tout s) ∧
      (¬ Blind tout s → ∃ k ≤ 20100 + 2 * tout, tout ≤ (tick^[k] s).unfed) := by
  have hfires := fun h => exists_unfed (s := s) h htout hmax hclosed hfresh htimer hunfed
  refine ⟨⟨?_, ?_⟩, hfires⟩
  · rintro ⟨k, hk⟩ hblind
    have hlt := hblind.unfed_lt htout hmax hclosed hfresh htimer hunfed k
    omega
  · intro h
    obtain ⟨k, -, hk⟩ := hfires h
    exact ⟨k, hk⟩

open Watchdog in
/-- The monitor thread runs last 100 ticks in front of the wrap, and a call comes with it. -/
theorem watchdog_fires_never : ¬ ∃ k, 4000 ≤ (tick^[k]
    { wwdgStatus := .wwdgClose, monitorTick := 0xFFFFFF9C, rtTick := 0xFFFFFF9C, timer := 100,
      unfed := 0, age := 0 }).unfed := by
  intro h
  refine (watchdog_fires_iff (by decide) (by decide) rfl rfl (by decide) rfl).1.1 h (Or.inr ?_)
  decide

end Abox.Device
