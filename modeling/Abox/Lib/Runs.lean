import Mathlib

/-!
# Runs of a labelled step relation

A component is given by a step relation `Step : σ → α → σ → Prop`. A finite
run is a list of labels with the state each of them led to (`Path`).

* `Path.always`: an invariant kept by every step holds in every state of a run.
* `Path.always_iff`: if, given an auxiliary invariant, one step keeps a
  property exactly when its label and pre-state meet a condition, then a run
  keeps the property throughout exactly when all of its steps meet the
  condition.
* `Path.forall_iff`: the same for a property of the states that certain labels
  lead to.
-/

namespace Runs

variable {σ α : Type}

/-- `Path Step s tr`: from `s`, the labels of `tr` are taken in order, each
    leading to the state it is paired with. -/
inductive Path (Step : σ → α → σ → Prop) : σ → List (α × σ) → Prop
  | nil (s : σ) : Path Step s []
  | cons {s s' : σ} {a : α} {tr : List (α × σ)} :
      Step s a s' → Path Step s' tr → Path Step s ((a, s') :: tr)

/-- The state a run ends in. -/
def last : σ → List (α × σ) → σ
  | s, [] => s
  | _, (_, s') :: tr => last s' tr

/-- `P` holds in every state of the run, the first included. -/
def Always (P : σ → Prop) : σ → List (α × σ) → Prop
  | s, [] => P s
  | s, (_, s') :: tr => P s ∧ Always P s' tr

/-- Every step of the run meets `Ok`, a condition on its pre-state and label. -/
def AllSteps (Ok : σ → α → Prop) : σ → List (α × σ) → Prop
  | _, [] => True
  | s, (a, s') :: tr => Ok s a ∧ AllSteps Ok s' tr

instance AllSteps.decidable {Ok : σ → α → Prop} [∀ s a, Decidable (Ok s a)] :
    (s : σ) → (tr : List (α × σ)) → Decidable (AllSteps Ok s tr)
  | _, [] => inferInstanceAs (Decidable True)
  | s, (a, s') :: tr =>
    letI : Decidable (AllSteps Ok s' tr) := AllSteps.decidable s' tr
    inferInstanceAs (Decidable (Ok s a ∧ AllSteps Ok s' tr))

theorem Always.head {P : σ → Prop} {s : σ} {tr : List (α × σ)} (h : Always P s tr) : P s := by
  cases tr with
  | nil => exact h
  | cons p tr => exact h.1

theorem Always.last {P : σ → Prop} {s : σ} {tr : List (α × σ)} (h : Always P s tr) :
    P (last s tr) := by
  induction tr generalizing s with
  | nil => exact h
  | cons p tr ih => exact ih h.2

theorem Always.mono {P Q : σ → Prop} (hPQ : ∀ s, P s → Q s) {s : σ} {tr : List (α × σ)}
    (h : Always P s tr) : Always Q s tr := by
  induction tr generalizing s with
  | nil => exact hPQ _ h
  | cons p tr ih => exact ⟨hPQ _ h.1, ih h.2⟩

theorem AllSteps.mono {P Q : σ → α → Prop} (hPQ : ∀ s a, P s a → Q s a) {s : σ}
    {tr : List (α × σ)} (h : AllSteps P s tr) : AllSteps Q s tr := by
  induction tr generalizing s with
  | nil => trivial
  | cons p tr ih => exact ⟨hPQ _ _ h.1, ih h.2⟩

/-! ## Runs in two parts -/

theorem path_append {Step : σ → α → σ → Prop} {s : σ} {tr tr' : List (α × σ)} :
    Path Step s (tr ++ tr') ↔ Path Step s tr ∧ Path Step (Runs.last s tr) tr' := by
  induction tr generalizing s with
  | nil => exact ⟨fun h => ⟨.nil s, h⟩, fun h => h.2⟩
  | cons p tr ih =>
    obtain ⟨a, t⟩ := p
    constructor
    · intro h
      cases h with
      | cons hs ht => exact ⟨.cons hs (ih.1 ht).1, (ih.1 ht).2⟩
    · rintro ⟨h, h'⟩
      cases h with
      | cons hs ht => exact .cons hs (ih.2 ⟨ht, h'⟩)

/-- One more step. -/
theorem Path.snoc {Step : σ → α → σ → Prop} {s t : σ} {a : α} {tr : List (α × σ)}
    (h : Path Step s tr) (ha : Step (Runs.last s tr) a t) : Path Step s (tr ++ [(a, t)]) :=
  path_append.2 ⟨h, .cons ha (.nil t)⟩

theorem last_append {s : σ} {tr tr' : List (α × σ)} :
    last s (tr ++ tr') = last (last s tr) tr' := by
  induction tr generalizing s with
  | nil => rfl
  | cons p tr ih => exact ih

theorem allSteps_append {Ok : σ → α → Prop} {s : σ} {tr tr' : List (α × σ)} :
    AllSteps Ok s (tr ++ tr') ↔ AllSteps Ok s tr ∧ AllSteps Ok (last s tr) tr' := by
  induction tr generalizing s with
  | nil => exact ⟨fun h => ⟨trivial, h⟩, fun h => h.2⟩
  | cons p tr ih =>
    obtain ⟨a, t⟩ := p
    show Ok s a ∧ AllSteps Ok t (tr ++ tr') ↔
      (Ok s a ∧ AllSteps Ok t tr) ∧ AllSteps Ok (last t tr) tr'
    rw [ih, and_assoc]

theorem allSteps_and {P Q : σ → α → Prop} {s : σ} {tr : List (α × σ)} :
    AllSteps (fun s a => P s a ∧ Q s a) s tr ↔ AllSteps P s tr ∧ AllSteps Q s tr := by
  induction tr generalizing s with
  | nil => exact ⟨fun _ => ⟨trivial, trivial⟩, fun _ => trivial⟩
  | cons p tr ih =>
    obtain ⟨a, t⟩ := p
    show (P s a ∧ Q s a) ∧ AllSteps (fun s a => P s a ∧ Q s a) t tr ↔
      (P s a ∧ AllSteps P t tr) ∧ Q s a ∧ AllSteps Q t tr
    rw [ih, and_and_and_comm]

/-! ## Parts of the states -/

section

variable {τ : Type} (f : σ → τ)

/-- What a run does to a part of the states. -/
def part (tr : List (α × σ)) : List (α × τ) := tr.map fun x => (x.1, f x.2)

theorem Path.part {Step : σ → α → σ → Prop} {Step' : τ → α → τ → Prop}
    (hstep : ∀ {s s' a}, Step s a s' → Step' (f s) a (f s')) {s : σ} {tr : List (α × σ)}
    (h : Path Step s tr) : Path Step' (f s) (Runs.part f tr) := by
  induction h with
  | nil s => exact .nil _
  | cons hs _ ih => exact .cons (hstep hs) ih

theorem last_part (s : σ) (tr : List (α × σ)) : last (f s) (part f tr) = f (last s tr) := by
  induction tr generalizing s with
  | nil => rfl
  | cons p tr ih => exact ih p.2

theorem allSteps_part {Ok : τ → α → Prop} {s : σ} {tr : List (α × σ)} :
    AllSteps Ok (f s) (part f tr) ↔ AllSteps (fun s a => Ok (f s) a) s tr := by
  induction tr generalizing s with
  | nil => exact Iff.rfl
  | cons p tr ih => exact and_congr_right fun _ => ih

end

/-! ## Invariants -/

/-- An invariant of the steps that meet `Ok` holds throughout the runs whose
    steps all meet it. -/
theorem Path.always_of_steps {Step : σ → α → σ → Prop} (Inv : σ → Prop) {Ok : σ → α → Prop}
    (hstep : ∀ {s s' a}, Inv s → Ok s a → Step s a s' → Inv s') {s : σ} {tr : List (α × σ)}
    (hp : Path Step s tr) (h0 : Inv s) (hok : AllSteps Ok s tr) : Always Inv s tr := by
  induction hp with
  | nil s => exact h0
  | cons hs _ ih => exact ⟨h0, ih (hstep h0 hok.1 hs) hok.2⟩

/-- An invariant of every step holds throughout every run. -/
theorem Path.always {Step : σ → α → σ → Prop} (Inv : σ → Prop)
    (hstep : ∀ {s s' a}, Inv s → Step s a s' → Inv s') {s : σ} {tr : List (α × σ)}
    (hp : Path Step s tr) (h0 : Inv s) : Always Inv s tr := by
  induction hp with
  | nil s => exact h0
  | cons hs _ ih => exact ⟨h0, ih (hstep h0 hs)⟩

/-- An invariant of the steps into `P` holds throughout the runs that stay in `P`. -/
theorem Path.always_of_always {Step : σ → α → σ → Prop} (Inv : σ → Prop) {P : σ → Prop}
    (hstep : ∀ {s s' a}, Inv s → Step s a s' → P s' → Inv s') {s : σ} {tr : List (α × σ)}
    (hp : Path Step s tr) (h0 : Inv s) (h : Always P s tr) : Always Inv s tr := by
  induction hp with
  | nil s => exact h0
  | cons hs _ ih => exact ⟨h0, ih (hstep h0 hs h.2.head) h.2⟩

/-- What an invariant says of the steps that are taken. -/
theorem Path.allSteps {Step : σ → α → σ → Prop} {Inv : σ → Prop} {Q : σ → α → Prop}
    (hstep : ∀ {s s' a}, Inv s → Step s a s' → Q s a) {s : σ} {tr : List (α × σ)}
    (hp : Path Step s tr) (h : Always Inv s tr) : AllSteps Q s tr := by
  induction hp with
  | nil s => trivial
  | cons hs _ ih => exact ⟨hstep h.1 hs, ih h.2⟩

/-- What follows of a step from the invariant and from its condition. -/
theorem AllSteps.of_always {Inv : σ → Prop} {Ok Q : σ → α → Prop}
    (hstep : ∀ {s a}, Inv s → Ok s a → Q s a) {s : σ} {tr : List (α × σ)} (h : Always Inv s tr)
    (hok : AllSteps Ok s tr) : AllSteps Q s tr := by
  induction tr generalizing s with
  | nil => trivial
  | cons p tr ih => exact ⟨hstep h.1 hok.1, ih h.2 hok.2⟩

/-- A run not all of whose steps meet `Ok` has a first part that ends with one
    that does not. -/
theorem exists_step_of_not_allSteps {Ok : σ → α → Prop} {s : σ} {tr : List (α × σ)}
    (h : ¬ AllSteps Ok s tr) :
    ∃ pre a t, pre ++ [(a, t)] <+: tr ∧ ¬ Ok (last s pre) a := by
  induction tr generalizing s with
  | nil => exact absurd trivial h
  | cons p tr ih =>
    obtain ⟨a, t⟩ := p
    by_cases ha : Ok s a
    · obtain ⟨pre, b, u, hpre, hb⟩ := ih fun htr => h ⟨ha, htr⟩
      exact ⟨(a, t) :: pre, b, u, (List.prefix_cons_inj _).2 hpre, hb⟩
    · exact ⟨[], a, t, List.prefix_append [(a, t)] tr, ha⟩

/-- If one step keeps `Good` exactly when it meets `Ok`, a run keeps `Good`
    throughout exactly when all of its steps meet `Ok`. -/
theorem Path.always_iff {Step : σ → α → σ → Prop} (Aux Good : σ → Prop) {Ok : σ → α → Prop}
    (haux : ∀ {s s' a}, Aux s → Step s a s' → Aux s')
    (hstep : ∀ {s s' a}, Aux s → Good s → Step s a s' → (Good s' ↔ Ok s a))
    {s : σ} {tr : List (α × σ)} (hp : Path Step s tr) (h0 : Aux s) (h1 : Good s) :
    Always Good s tr ↔ AllSteps Ok s tr := by
  induction hp with
  | nil s => exact iff_of_true h1 trivial
  | cons hs _ ih =>
    have hiff := hstep h0 h1 hs
    constructor
    · rintro ⟨-, h⟩
      have hgood := h.head
      exact ⟨hiff.1 hgood, (ih (haux h0 hs) hgood).1 h⟩
    · rintro ⟨hok, h⟩
      have hgood := hiff.2 hok
      exact ⟨h1, (ih (haux h0 hs) hgood).2 h⟩

/-- If a step leads to `Good` exactly when it meets `Ok`, all steps of a run do exactly
    when all of them meet `Ok`. -/
theorem Path.forall_iff {Step : σ → α → σ → Prop} {Inv : σ → Prop} {Ok : σ → α → Prop}
    (Good : α → σ → Prop) (hstep : ∀ {s s' a}, Inv s → Step s a s' → (Good a s' ↔ Ok s a))
    {s : σ} {tr : List (α × σ)} (hp : Path Step s tr) (h : Always Inv s tr) :
    (∀ p ∈ tr, Good p.1 p.2) ↔ AllSteps Ok s tr := by
  induction hp with
  | nil s => exact iff_of_true (fun _ hp => absurd hp List.not_mem_nil) trivial
  | cons hs _ ih => rw [List.forall_mem_cons, hstep h.1 hs, ih h.2]; rfl

/-- The run of a step function, `none` if some step is not enabled. -/
def exec (step : σ → α → Option σ) : σ → List α → Option (List (α × σ))
  | _, [] => some []
  | s, a :: as => (step s a).bind fun s' => (exec step s' as).map ((a, s') :: ·)

/-- A run of a step function whose labels meet `Ok` is a run of the relation that these steps
    are in. -/
theorem exec_path_of {step : σ → α → Option σ} {Step : σ → α → σ → Prop} {Ok : α → Prop}
    (hstep : ∀ {s s' a}, Ok a → step s a = some s' → Step s a s') {s : σ} {as : List α}
    {tr : List (α × σ)} (hok : ∀ a ∈ as, Ok a) (h : exec step s as = some tr) :
    Path Step s tr := by
  induction as generalizing s tr with
  | nil => cases h; exact .nil s
  | cons a as ih =>
    simp only [exec, Option.bind_eq_some_iff, Option.map_eq_some_iff] at h
    obtain ⟨s', hs, tr', ht, rfl⟩ := h
    rw [List.forall_mem_cons] at hok
    exact .cons (hstep hok.1 hs) (ih hok.2 ht)

theorem exec_path {step : σ → α → Option σ} {Step : σ → α → σ → Prop}
    (hstep : ∀ {s s' a}, step s a = some s' → Step s a s') {s : σ} {as : List α}
    {tr : List (α × σ)} (h : exec step s as = some tr) : Path Step s tr := by
  have hall : ∀ {s s' a}, True → step s a = some s' → Step s a s' := fun _ hs => hstep hs
  exact exec_path_of hall (fun _ _ => trivial) h

/-- Where every label can be taken from a state with the invariant, every sequence is a run. -/
theorem exec_isSome {step : σ → α → Option σ} {Inv : σ → Prop}
    (hstep : ∀ {s}, Inv s → ∀ a, ∃ s', step s a = some s' ∧ Inv s') {s : σ} (h : Inv s)
    (as : List α) : ∃ tr, exec step s as = some tr := by
  induction as generalizing s with
  | nil => exact ⟨[], rfl⟩
  | cons a as ih =>
    obtain ⟨s', hs, h'⟩ := hstep h a
    obtain ⟨tr, htr⟩ := ih h'
    exact ⟨(a, s') :: tr, by rw [exec, hs, Option.bind_some, htr]; rfl⟩

/-- What can be checked of a run, holds of it. -/
theorem exists_exec {step : σ → α → Option σ} {P : List (α × σ) → Prop} [DecidablePred P] {s : σ}
    {as : List α} (h : (exec step s as).any (fun tr => decide (P tr)) = true) :
    ∃ tr, exec step s as = some tr ∧ P tr := by
  obtain ⟨tr, htr, hp⟩ := (Option.any_eq_true _ _).1 h
  exact ⟨tr, htr, of_decide_eq_true hp⟩

/-- A run all of whose labels meet `Ok`, whatever the state. -/
theorem exec_allSteps {step : σ → α → Option σ} {Ok : σ → α → Prop} {s : σ} {as : List α}
    {tr : List (α × σ)} (hok : ∀ a ∈ as, ∀ t, Ok t a) (h : exec step s as = some tr) :
    AllSteps Ok s tr := by
  induction as generalizing s tr with
  | nil => cases h; trivial
  | cons a as ih =>
    simp only [exec, Option.bind_eq_some_iff, Option.map_eq_some_iff] at h
    obtain ⟨s', -, tr', ht, rfl⟩ := h
    exact ⟨hok a (by simp) s, ih (fun b hb => hok b (by simp [hb])) ht⟩

end Runs
