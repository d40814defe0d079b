import Abox.Lib.Blocks
import Abox.Lib.Runs

/-!
# The buffers of the log thread

The two pointers `log_reason` and `log_server` of `log_set` and what the handlers of
`log_thread` do with them (`Abox_log.c` lines 861–991 and 1038–1147). Blocks are
numbered in the order in which they are allocated. A pass of the thread handles its
events in the order record, debug, send.

* `buffers_safe_iff`: in a run the blocks are freed once each, before their pointer is
  overwritten, and not used afterwards, iff no debug event without a USB disk finds
  `log_reason` set and no send event follows one that found memory for the first buffer only.
* `buffers_unsafe`: a run in which a block is freed twice, and one in which a block is
  lost.
-/

namespace Abox.Log

open Runs Blocks

/-! ## The handlers -/

/-- The two pointers, the number of the next block, what was done with the blocks, and what
    `rt_malloc` and `rt_calloc` answered to the last send event. -/
structure LogSet where
  log_reason : Option ℕ
  log_server : Option ℕ
  next : ℕ
  ops : List (Op ℕ)
  lastSend : Option (Bool × Bool)
  deriving DecidableEq

/-- `rt_calloc` of `log_set`. -/
def LogSet.init : LogSet := ⟨none, none, 0, [], none⟩

/-- `rt_malloc` or `rt_calloc`, which finds memory if `ok`. -/
def LogSet.alloc (s : LogSet) (ok : Bool) : Option ℕ × LogSet :=
  if ok then (some s.next, { s with next := s.next + 1 }) else (none, s)

/-- Something is done with a block. -/
def LogSet.op (s : LogSet) (op : Op ℕ) : LogSet := { s with ops := s.ops ++ [op] }

/-- What an assignment to a pointer does to the block that it held. -/
def overwritten (p : Option ℕ) : List (Op ℕ) := (p.map Op.overwrite).toList

def LogSet.setReason (s : LogSet) (p : Option ℕ) : LogSet :=
  { s with log_reason := p, ops := s.ops ++ overwritten s.log_reason }

def LogSet.setServer (s : LogSet) (p : Option ℕ) : LogSet :=
  { s with log_server := p, ops := s.ops ++ overwritten s.log_server }

/-- `analysis_reason`: whether there is a USB disk, memory, and a file on the disk. -/
def LogSet.analysis_reason (s : LogSet) (usb calloc opened : Bool) : LogSet :=
  if usb then
    let (log_reason, s) := s.alloc calloc
    let s := s.setReason log_reason
    match log_reason with
    | none => s
    | some b => if opened then s.op (.use b) else s
  else s

/-- `debug_log`. -/
def LogSet.debug_log (s : LogSet) (usb calloc opened : Bool) : LogSet :=
  let s := s.analysis_reason usb calloc opened
  match s.log_reason with
  | none => s
  | some b => (s.op (.free b)).setReason none

/-- `send_log_to_server`. Its two pointers are left as they are behind the two frees. -/
def LogSet.send_log_to_server (s : LogSet) (malloc calloc : Bool) : LogSet :=
  let (log_server, s) := s.alloc malloc
  let s := s.setServer log_server
  match log_server with
  | none => s
  | some b =>
    let (log_reason, s) := s.alloc calloc
    let s := s.setReason log_reason
    match log_reason with
    | none => s
    | some c => (((s.op (.use b)).op (.use c)).op (.free b)).op (.free c)

/-- The events of `log_thread`, with the answers of the USB driver, the heap and the
    file system. -/
inductive LogEvent
  | record
  | debug (usb calloc opened : Bool)
  | send (malloc calloc : Bool)
  deriving DecidableEq

/-- A handler. `record_log` does nothing with the two buffers. -/
def LogSet.handle (s : LogSet) : LogEvent → LogSet
  | .record => s
  | .debug usb calloc opened => s.debug_log usb calloc opened
  | .send malloc calloc =>
    { s.send_log_to_server malloc calloc with lastSend := some (malloc, calloc) }

def LogSet.Step (s : LogSet) (e : LogEvent) (s' : LogSet) : Prop := s' = s.handle e

/-! ## Specification -/

/-- Each block was freed once before its pointer was overwritten, and not used any more. -/
def LogSet.Safe (s : LogSet) : Prop := Clean s.ops

instance (s : LogSet) : Decidable s.Safe := inferInstanceAs (Decidable (Clean s.ops))

/-- Without a USB disk `log_reason` is not set, and the log is not sent next after the event
    that found memory for `log_server` and none for `log_reason`. -/
def BuffersFree (s : LogSet) : LogEvent → Prop
  | .record => True
  | .debug usb _ _ => usb = false → s.log_reason = none
  | .send _ _ => s.lastSend ≠ some (true, false)

/-! ## One event -/

/-- The block of `log_server`, if there is one, was freed. -/
def LogSet.ServerFree (s : LogSet) : Prop := ∀ b, s.log_server = some b → .free b ∈ s.ops

/-- The block of `log_reason` is always a freed one, later blocks are not, and that of
    `log_server` is one unless the last send event found no memory for `log_reason`. -/
structure LogInv (s : LogSet) : Prop where
  reason : ∀ b, s.log_reason = some b → .free b ∈ s.ops
  freed : ∀ b, .free b ∈ s.ops → b < s.next
  server_lt : ∀ b, s.log_server = some b → b < s.next
  server : s.ServerFree ↔ s.lastSend ≠ some (true, false)

theorem clean_overwritten_iff {ops : List (Op ℕ)} (h : Clean ops) (p : Option ℕ) :
    Clean (ops ++ overwritten p) ↔ ∀ b, p = some b → .free b ∈ ops := by
  cases p with
  | none => simpa [overwritten] using h
  | some b =>
    rw [clean_append, and_iff_right h]
    show OkAfter ops (.overwrite b) ∧ True ↔ _
    rw [and_true, h.okAfter_overwrite]
    simp

@[simp] theorem free_mem_overwritten (b : ℕ) (p : Option ℕ) :
    Op.free b ∉ overwritten p := by
  cases p <;> simp [overwritten]

/-- A new block is used, if it is, and freed, and its pointer is cleared. -/
theorem clean_new_block {ops : List (Op ℕ)} {n : ℕ} (h : Clean ops) (hn : .free n ∉ ops)
    (used : Bool) :
    Clean (ops ++ (if used then [Op.use n] else []) ++ [Op.free n] ++ [Op.overwrite n]) := by
  have hused : Clean (ops ++ if used then [Op.use n] else []) := by
    rw [clean_append, and_iff_right h]
    cases used
    · trivial
    · exact ⟨hn, trivial⟩
  have hn' : .free n ∉ ops ++ if used then [Op.use n] else [] := by
    cases used <;> simpa using hn
  have hfreed : Clean (ops ++ (if used then [Op.use n] else []) ++ [.free n]) :=
    (clean_append ..).2 ⟨hused, hn', trivial⟩
  exact (clean_append ..).2 ⟨hfreed, (hfreed.okAfter_overwrite n).2 (by simp), trivial⟩

/-- Two new blocks are used and freed. -/
theorem clean_two_blocks {ops : List (Op ℕ)} {b c : ℕ} (h : Clean ops) (hb : .free b ∉ ops)
    (hc : .free c ∉ ops) (hne : b ≠ c) :
    Clean (ops ++ [Op.use b] ++ [Op.use c] ++ [Op.free b] ++ [Op.free c]) := by
  simp only [clean_append, cleanFrom_cons, cleanFrom_nil, and_true, OkAfter]
  simp [h, hb, hc, hne.symm]

theorem debug_log_absent (s : LogSet) (calloc opened : Bool) :
    s.debug_log false calloc opened =
      match s.log_reason with
      | none => s
      | some b => { s with log_reason := none, ops := s.ops ++ [.free b] ++ [.overwrite b] } := by
  cases h : s.log_reason <;> simp [LogSet.debug_log, LogSet.analysis_reason, h, LogSet.op,
    LogSet.setReason, overwritten]

theorem debug_log_noMem (s : LogSet) (opened : Bool) :
    s.debug_log true false opened =
      { s with log_reason := none, ops := s.ops ++ overwritten s.log_reason } := rfl

theorem debug_log_present (s : LogSet) (opened : Bool) :
    s.debug_log true true opened =
      { s with
        log_reason := none
        next := s.next + 1
        ops := s.ops ++ overwritten s.log_reason ++ (if opened then [Op.use s.next] else []) ++
          [Op.free s.next] ++ [Op.overwrite s.next] } := by
  cases opened with
  | false =>
    have h : s.ops ++ overwritten s.log_reason ++ [] = s.ops ++ overwritten s.log_reason :=
      List.append_nil _
    show _ = { s with log_reason := none, next := s.next + 1, ops := _ ++ [] ++ _ ++ _ }
    rw [h]
    rfl
  | true => rfl

theorem send_log_to_server_noMem (s : LogSet) (calloc : Bool) :
    s.send_log_to_server false calloc =
      { s with log_server := none, ops := s.ops ++ overwritten s.log_server } := rfl

theorem send_log_to_server_noReason (s : LogSet) :
    s.send_log_to_server true false =
      { s with
        log_reason := none
        log_server := some s.next
        next := s.next + 1
        ops := s.ops ++ overwritten s.log_server ++ overwritten s.log_reason } := rfl

theorem send_log_to_server_sent (s : LogSet) :
    s.send_log_to_server true true =
      { s with
        log_reason := some (s.next + 1)
        log_server := some s.next
        next := s.next + 2
        ops := s.ops ++ overwritten s.log_server ++ overwritten s.log_reason ++
          [Op.use s.next] ++ [Op.use (s.next + 1)] ++ [Op.free s.next] ++
            [Op.free (s.next + 1)] } := rfl

namespace LogInv

variable {s : LogSet}

theorem free_next (h : LogInv s) {n : ℕ} (hn : s.next ≤ n) : .free n ∉ s.ops := by
  intro hfree
  have := h.freed n hfree
  omega

/-- The pointer to the text may always be overwritten. -/
theorem clean_reason (h : LogInv s) {ops : List (Op ℕ)} (hops : Clean (s.ops ++ ops)) :
    Clean (s.ops ++ ops ++ overwritten s.log_reason) :=
  (clean_overwritten_iff hops _).2 fun b hb => List.mem_append_left _ (h.reason b hb)

/-- Nothing that is done with other blocks changes whether the one of `log_server` is free. -/
theorem server_of_same {s' : LogSet} (h : LogInv s) (hserver : s'.log_server = s.log_server)
    (hlast : s'.lastSend = s.lastSend)
    (hfree : ∀ b, s.log_server = some b → (.free b ∈ s'.ops ↔ .free b ∈ s.ops)) :
    s'.ServerFree ↔ s'.lastSend ≠ some (true, false) := by
  rw [hlast, ← h.server]
  unfold LogSet.ServerFree
  rw [hserver]
  exact forall_congr' fun b => imp_congr_right (hfree b)

theorem debug_log (h : LogInv s) (usb calloc opened : Bool) :
    LogInv (s.debug_log usb calloc opened) := by
  cases usb with
  | false =>
    rw [debug_log_absent]
    cases hs : s.log_reason with
    | none => exact ⟨by simp [hs], h.freed, h.server_lt, h.server⟩
    | some b =>
      have hb := h.reason b hs
      have hmem : ∀ c, .free c ∈ s.ops ++ [.free b] ++ [.overwrite b] ↔ .free c ∈ s.ops := by
        intro c
        simp only [List.mem_append, List.mem_singleton, Op.free.injEq, reduceCtorEq, or_false,
          or_iff_left_iff_imp]
        rintro rfl
        exact hb
      exact ⟨nofun, fun c hc => h.freed c ((hmem c).1 hc), h.server_lt,
        h.server_of_same rfl rfl fun c _ => hmem c⟩
  | true =>
    cases calloc with
    | false =>
      rw [debug_log_noMem]
      have hmem : ∀ c, .free c ∈ s.ops ++ overwritten s.log_reason ↔ .free c ∈ s.ops := by simp
      exact ⟨nofun, fun c hc => h.freed c ((hmem c).1 hc), h.server_lt,
        h.server_of_same rfl rfl fun c _ => hmem c⟩
    | true =>
      rw [debug_log_present]
      have hmem : ∀ c, .free c ∈ s.ops ++ overwritten s.log_reason ++
          (if opened then [Op.use s.next] else []) ++ [.free s.next] ++ [.overwrite s.next] ↔
            .free c ∈ s.ops ∨ c = s.next := by
        intro c
        cases opened <;> simp
      refine ⟨nofun, fun c hc => ?_, fun c hc => Nat.lt_succ_of_lt (h.server_lt c hc),
        h.server_of_same rfl rfl fun c hc => ?_⟩
      · show c < s.next + 1
        rcases (hmem c).1 hc with hc | rfl
        · exact Nat.lt_succ_of_lt (h.freed c hc)
        · exact Nat.lt_succ_self _
      · have hlt := h.server_lt c hc
        refine (hmem c).trans (or_iff_left ?_)
        omega

theorem send (h : LogInv s) (malloc calloc : Bool) :
    LogInv { s.send_log_to_server malloc calloc with lastSend := some (malloc, calloc) } := by
  cases malloc with
  | false =>
    rw [send_log_to_server_noMem]
    refine ⟨fun b hb => List.mem_append_left _ (h.reason b hb),
      fun c hc => h.freed c (by simpa using hc), nofun, iff_of_true nofun nofun⟩
  | true =>
    cases calloc with
    | false =>
      rw [send_log_to_server_noReason]
      have hnext : .free s.next ∉
          s.ops ++ overwritten s.log_server ++ overwritten s.log_reason := by
        simpa using h.free_next le_rfl
      refine ⟨nofun, fun c hc => ?_, fun c hc => ?_,
        iff_of_false (fun hfree => hnext (hfree _ rfl)) fun hne => hne rfl⟩
      · exact Nat.lt_succ_of_lt (h.freed c (by simpa using hc))
      · obtain rfl := Option.some.inj hc
        exact Nat.lt_succ_self _
    | true =>
      rw [send_log_to_server_sent]
      have hmem : ∀ c, .free c ∈ s.ops ++ overwritten s.log_server ++ overwritten s.log_reason ++
          [Op.use s.next] ++ [Op.use (s.next + 1)] ++ [Op.free s.next] ++
            [Op.free (s.next + 1)] ↔ .free c ∈ s.ops ∨ c = s.next ∨ c = s.next + 1 := by simp
      refine ⟨fun b hb => ?_, fun c hc => ?_, fun c hc => ?_, iff_of_true (fun b hb => ?_) nofun⟩
      · obtain rfl := Option.some.inj hb
        exact (hmem _).2 (Or.inr (Or.inr rfl))
      · show c < s.next + 2
        rcases (hmem c).1 hc with hc | rfl | rfl
        · have := h.freed c hc
          omega
        · omega
        · omega
      · obtain rfl := Option.some.inj hc
        show s.next < s.next + 2
        omega
      · obtain rfl := Option.some.inj hb
        exact (hmem _).2 (Or.inr (Or.inl rfl))

theorem handle (h : LogInv s) (e : LogEvent) : LogInv (s.handle e) := by
  cases e with
  | record => exact h
  | debug usb calloc opened => exact h.debug_log usb calloc opened
  | send malloc calloc => exact h.send malloc calloc

end LogInv

/-- An event keeps the buffers safe iff its condition holds. -/
theorem safe_handle_iff {s : LogSet} (hinv : LogInv s) (h : s.Safe) (e : LogEvent) :
    (s.handle e).Safe ↔ BuffersFree s e := by
  have hops : Clean s.ops := h
  cases e with
  | record => exact iff_of_true h trivial
  | debug usb calloc opened =>
    show (s.debug_log usb calloc opened).Safe ↔ (usb = false → s.log_reason = none)
    cases usb with
    | false =>
      rw [debug_log_absent, imp_iff_right rfl]
      cases hs : s.log_reason with
      | none => exact iff_of_true h rfl
      | some b =>
        refine iff_of_false (fun hsafe => ?_) nofun
        have hfree : Clean (s.ops ++ [Op.free b] ++ [Op.overwrite b]) := hsafe
        exact ((clean_append ..).1 hfree.of_append).2.1 (hinv.reason b hs)
    | true =>
      have hreason : Clean (s.ops ++ overwritten s.log_reason) :=
        (clean_overwritten_iff hops _).2 hinv.reason
      refine iff_of_true ?_ nofun
      cases calloc with
      | false => exact hreason
      | true =>
        rw [debug_log_present]
        exact clean_new_block hreason (by simpa using hinv.free_next le_rfl) opened
  | send malloc calloc =>
    show (s.send_log_to_server malloc calloc).Safe ↔ s.lastSend ≠ some (true, false)
    rw [← hinv.server, LogSet.ServerFree, ← clean_overwritten_iff hops]
    cases malloc with
    | false => rfl
    | true =>
      cases calloc with
      | false =>
        rw [send_log_to_server_noReason]
        exact ⟨Clean.of_append, hinv.clean_reason⟩
      | true =>
        rw [send_log_to_server_sent]
        constructor
        · intro hsafe
          have hclean : Clean _ := hsafe
          exact hclean.of_append.of_append.of_append.of_append.of_append
        · intro hserver
          refine clean_two_blocks (hinv.clean_reason hserver) ?_ ?_ (by omega)
          · simpa using hinv.free_next le_rfl
          · simpa using hinv.free_next (Nat.le_succ _)

/-- The blocks are freed once each, before their pointer is overwritten, and not used
    afterwards, iff every event meets its condition. -/
theorem buffers_safe_iff {tr : List (LogEvent × LogSet)} (hrun : Path LogSet.Step LogSet.init tr) :
    Always LogSet.Safe LogSet.init tr ↔ AllSteps BuffersFree LogSet.init tr := by
  have hinit : LogInv LogSet.init := ⟨nofun, nofun, nofun, iff_of_true nofun nofun⟩
  refine Path.always_iff LogInv LogSet.Safe ?_ ?_ hrun hinit trivial
  · rintro s _ e hinv rfl
    exact hinv.handle e
  · rintro s _ e hinv hsafe rfl
    exact safe_handle_iff hinv hsafe e

/-- The run of a list of events. -/
def handled : LogSet → List LogEvent → List (LogEvent × LogSet)
  | _, [] => []
  | s, e :: es => (e, s.handle e) :: handled (s.handle e) es

theorem path_handled (s : LogSet) (es : List LogEvent) : Path LogSet.Step s (handled s es) := by
  induction es generalizing s with
  | nil => exact .nil s
  | cons e es ih => exact .cons rfl (ih _)

/-- The log is written to a USB disk, sent twice, and written again. -/
theorem buffers_safe_iff_disk :
    ∃ tr, Path LogSet.Step LogSet.init tr ∧ tr.length = 4 ∧ Always LogSet.Safe LogSet.init tr := by
  have hrun := path_handled LogSet.init
    [.debug true true true, .send true true, .send true true, .debug true true false]
  exact ⟨_, hrun, rfl, (buffers_safe_iff hrun).2 ⟨nofun, nofun, nofun, nofun, trivial⟩⟩

/-- Without a disk the text of a log that was sent is freed again. If there is no memory
    for the text, the next log that is sent loses a block. -/
theorem buffers_unsafe :
    (∃ tr, Path LogSet.Step LogSet.init tr ∧
      tr.map Prod.fst = [.send true true, .debug false false false] ∧
      ¬ Always LogSet.Safe LogSet.init tr) ∧
    ∃ tr, Path LogSet.Step LogSet.init tr ∧ tr.map Prod.fst = [.send true false, .send true true] ∧
      ¬ Always LogSet.Safe LogSet.init tr := by
  constructor
  · exact ⟨handled LogSet.init [.send true true, .debug false false false], path_handled _ _, rfl,
      fun h => absurd h.last (by decide)⟩
  · exact ⟨handled LogSet.init [.send true false, .send true true], path_handled _ _, rfl,
      fun h => absurd h.last (by decide)⟩

end Abox.Log
