import Mathlib

/-!
# Programs over a memory that survives power cuts

A program reads and changes a memory `σ` by single operations. The power can
fail before any operation; the memory then keeps what the operations before it
made of it, and everything else is lost. A failed check can also make the
program hang.

* `Triple P c Q C`: from a memory in `P`, the program `c` never hangs, ends in
  `Q` if the power lasts, and leaves a memory in `C` if it is cut.
* `Triple.pure`, `Triple.bind`, `Triple.op`, `Triple.get`, `Triple.assert`: one
  rule for each way to build a program; `Triple.checkedOp`: a checked operation.
* `Triple.recovers`: if what a cut leaves is what the program can start from,
  then any number of cut runs does no harm.
-/

namespace PowerCut

variable {σ α β : Type}

/-- How a run ends: with a result, the memory and the number of operations the
    power still lasts for; by a power cut; or never. -/
inductive Outcome (σ α : Type)
  | done (a : α) (s : σ) (power : Option ℕ)
  | cut (s : σ)
  | hang

/-- A program. The power fails after the given number of operations, and never
    for `none`. -/
def Prog (σ α : Type) := σ → Option ℕ → Outcome σ α

namespace Prog

def pure (a : α) : Prog σ α := fun s power => .done a s power

def bind (c : Prog σ α) (k : α → Prog σ β) : Prog σ β := fun s power =>
  match c s power with
  | .done a s power => k a s power
  | .cut s => .cut s
  | .hang => .hang

instance : Monad (Prog σ) where
  pure := pure
  bind := bind

/-- One operation on the memory. -/
def op (f : σ → σ) : Prog σ Unit := fun s power =>
  match power with
  | none => .done () (f s) none
  | some 0 => .cut s
  | some (n + 1) => .done () (f s) (some n)

/-- A look at the memory, which is no operation. -/
def get (f : σ → α) : Prog σ α := fun s power => .done (f s) s power

/-- A change of what only the model records, which is no operation. -/
def record (f : σ → σ) : Prog σ Unit := fun s power => .done () (f s) power

/-- A check; if it fails, the program hangs. -/
def assert (b : Bool) : Prog σ Unit := fun s power => if b then .done () s power else .hang

theorem bind_of_done {c : Prog σ α} {k : α → Prog σ β} {s s' : σ} {power power' : Option ℕ} {a : α}
    (h : c s power = .done a s' power') : (c >>= k) s power = k a s' power' := by
  show Prog.bind c k s power = _
  unfold Prog.bind
  rw [h]

theorem bind_assoc {γ : Type} (c : Prog σ α) (k : α → Prog σ β) (k' : β → Prog σ γ) :
    c >>= k >>= k' = c >>= fun a => k a >>= k' := by
  funext s power
  show Prog.bind (Prog.bind c k) k' s power = Prog.bind c (fun a => Prog.bind (k a) k') s power
  unfold Prog.bind
  cases c s power <;> rfl

end Prog

/-- The outcome is as promised, for a run with the given power. -/
def Outcome.Meets (Q : α → σ → Prop) (C : σ → Prop) (power : Option ℕ) : Outcome σ α → Prop
  | .done a s power' => Q a s ∧ (power = none → power' = none)
  | .cut s => C s ∧ power ≠ none
  | .hang => False

theorem Outcome.Meets.mono {Q Q' : α → σ → Prop} {C C' : σ → Prop} {power power' : Option ℕ}
    {o : Outcome σ α} (h : o.Meets Q C power') (hQ : ∀ a s, Q a s → Q' a s)
    (hC : ∀ s, C s → C' s) (hp : power = none → power' = none) : o.Meets Q' C' power := by
  cases o with
  | done a s p => exact ⟨hQ a s h.1, fun hn => h.2 (hp hn)⟩
  | cut s => exact ⟨hC s h.1, fun hn => h.2 (hp hn)⟩
  | hang => exact h

/-- From a memory in `P`, `c` ends in `Q`, or is cut and leaves `C`. -/
def Triple (P : σ → Prop) (c : Prog σ α) (Q : α → σ → Prop) (C : σ → Prop) : Prop :=
  ∀ s power, P s → (c s power).Meets Q C power

namespace Triple

variable {P P' : σ → Prop} {Q Q' : α → σ → Prop} {R : β → σ → Prop} {C C' : σ → Prop}

theorem conseq {c : Prog σ α} (h : Triple P c Q C) (hP : ∀ s, P' s → P s)
    (hQ : ∀ a s, Q a s → Q' a s) (hC : ∀ s, C s → C' s) : Triple P' c Q' C' := by
  intro s power hs
  exact (h s power (hP s hs)).mono hQ hC id

/-- A triple may be proved for one memory at a time. -/
theorem of_forall {c : Prog σ α} (h : ∀ s, P s → Triple (fun t => t = s) c Q C) :
    Triple P c Q C :=
  fun s power hs => h s hs s power rfl

theorem pure {a : α} (h : ∀ s, P s → Q a s) : Triple P (Pure.pure a : Prog σ α) Q C :=
  fun s _ hs => ⟨h s hs, id⟩

theorem bind {c : Prog σ α} {k : α → Prog σ β} (hc : Triple P c Q C)
    (hk : ∀ a, Triple (Q a) (k a) R C) : Triple P (c >>= k) R C := by
  intro s power hs
  have h := hc s power hs
  show (Prog.bind c k s power).Meets R C power
  unfold Prog.bind
  cases hrun : c s power with
  | done a s' power' =>
    rw [hrun] at h
    exact (hk a s' power' h.1).mono (fun _ _ hr => hr) (fun _ hc => hc) h.2
  | cut s' =>
    rw [hrun] at h
    exact h
  | hang =>
    rw [hrun] at h
    exact h

theorem op {f : σ → σ} {Q : Unit → σ → Prop} (hQ : ∀ s, P s → Q () (f s))
    (hC : ∀ s, P s → C s) : Triple P (Prog.op f) Q C := by
  intro s power hs
  match power with
  | none => exact ⟨hQ s hs, id⟩
  | some 0 => exact ⟨hC s hs, by simp⟩
  | some (n + 1) => exact ⟨hQ s hs, by simp⟩

theorem get {f : σ → α} (h : ∀ s, P s → Q (f s) s) : Triple P (Prog.get f) Q C :=
  fun s _ hs => ⟨h s hs, id⟩

theorem record {f : σ → σ} {Q : Unit → σ → Prop} (h : ∀ s, P s → Q () (f s)) :
    Triple P (Prog.record f) Q C :=
  fun s _ hs => ⟨h s hs, id⟩

theorem assert {b : Bool} {Q : Unit → σ → Prop} (hb : b = true) (h : ∀ s, P s → Q () s) :
    Triple P (Prog.assert b) Q C := by
  intro s power hs
  show (if b then Outcome.done () s power else .hang).Meets Q C power
  rw [if_pos hb]
  exact ⟨h s hs, id⟩

/-- An operation behind a check, on one memory: it is done, or was not begun. -/
theorem checkedOp {b : Bool} {f : σ → σ} {t : σ} (hb : b = true) (ht : C t) :
    Triple (fun s => s = t) (do Prog.assert b; Prog.op f) (fun _ s => s = f t) C := by
  apply Triple.bind (Q := fun _ s => s = t)
  · exact Triple.assert hb fun s hs => hs
  · intro _
    apply Triple.op
    · rintro s rfl
      rfl
    · rintro s rfl
      exact ht

/-- If the power never fails, the program ends. -/
theorem ends {c : Prog σ α} (h : Triple P c Q C) {s : σ} (hs : P s) :
    ∃ a s', c s none = .done a s' none ∧ Q a s' := by
  have h' := h s none hs
  cases hrun : c s none with
  | done a s' power =>
    rw [hrun] at h'
    obtain rfl := h'.2 rfl
    exact ⟨a, s', rfl, h'.1⟩
  | cut s' =>
    rw [hrun] at h'
    exact absurd rfl h'.2
  | hang =>
    rw [hrun] at h'
    exact h'.elim

theorem done {c : Prog σ α} (h : Triple P c Q C) {s s' : σ} {a : α} {power power' : Option ℕ}
    (hs : P s) (hrun : c s power = .done a s' power') : Q a s' := by
  have h' := h s power hs
  rw [hrun] at h'
  exact h'.1

theorem not_hang {c : Prog σ α} (h : Triple P c Q C) {s : σ} (hs : P s) (power : Option ℕ) :
    c s power ≠ .hang := by
  intro hrun
  have h' := h s power hs
  rw [hrun] at h'
  exact h'

end Triple

/-! ## Recovery -/

/-- `CutRuns c s s'`: some number of runs of `c`, each cut and started again on
    what the one before left, lead from `s` to `s'`. -/
inductive CutRuns (c : Prog σ α) : σ → σ → Prop
  | none (s : σ) : CutRuns c s s
  | cut {s s' s'' : σ} {n : ℕ} : c s (some n) = .cut s' → CutRuns c s' s'' → CutRuns c s s''

/-- What every cut leaves and a run can start from holds after any cut runs. -/
theorem Triple.recovers {P : σ → Prop} {c : Prog σ α} {Q : α → σ → Prop}
    (h : Triple P c Q P) {s s' : σ} (hs : P s) (hcuts : CutRuns c s s') : P s' := by
  induction hcuts with
  | none s => exact hs
  | @cut s s' _ n hrun _ ih =>
    apply ih
    have h' := h s (some n) hs
    rw [hrun] at h'
    exact h'.1

end PowerCut
