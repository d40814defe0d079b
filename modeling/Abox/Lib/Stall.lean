import Abox.Lib.PowerCut

/-!
# Programs that may hang until the power fails

`Prog.assert` of `Abox.Lib.PowerCut` hangs whatever the power does. Here a failed
check waits: if the power fails, the memory keeps what is in it at that moment.

* `Prog.check`: a check that waits when it fails.
* `Prog.zoom`: a program over a part of the memory.
* `Metered c`: `c` takes a number of operations that does not depend on the power.
* `Keeps P c`: every operation of `c` stays in `P`.
* `Refines c f C`: where `c` ends, it ends as the partial function `f` says, which
  gives nothing exactly where `c` hangs; and a power failure leaves a memory that
  `C` allows. There is one rule for each way to build a program.
-/

namespace PowerCut

variable {σ τ α β : Type}

namespace Prog

/-- A program that does nothing more, until the power fails. -/
def stall : Prog σ α := fun s power =>
  match power with
  | none => .hang
  | some _ => .cut s

/-- A check; if it fails, the program waits for ever. -/
def check (b : Bool) : Prog σ Unit := if b then pure () else stall

/-- `c` on the part `get` of the memory. -/
def zoom (get : σ → τ) (set : σ → τ → σ) (c : Prog τ α) : Prog σ α := fun s power =>
  match c (get s) power with
  | .done a t power' => .done a (set s t) power'
  | .cut t => .cut (set s t)
  | .hang => .hang

end Prog

theorem Prog.get_bind (f : σ → α) (k : α → Prog σ β) (s : σ) (power : Option ℕ) :
    (Prog.get f >>= k) s power = k (f s) s power := rfl

theorem Prog.record_bind (f : σ → σ) (k : Unit → Prog σ β) (s : σ) (power : Option ℕ) :
    (Prog.record f >>= k) s power = k () (f s) power := rfl

/-- A run of `c >>= k` that ends is one of `c` that ends, and one of `k`. -/
theorem Prog.bind_done {c : Prog σ α} {k : α → Prog σ β} {s t : σ} {b : β}
    {power power' : Option ℕ} (h : (c >>= k) s power = .done b t power') :
    ∃ a u power'', c s power = .done a u power'' ∧ k a u power'' = .done b t power' := by
  change Prog.bind c k s power = _ at h
  unfold Prog.bind at h
  cases hrun : c s power with
  | done a u power'' =>
    rw [hrun] at h
    exact ⟨a, u, power'', rfl, h⟩
  | cut u =>
    rw [hrun] at h
    cases h
  | hang =>
    rw [hrun] at h
    cases h

/-! ## One run -/

namespace Outcome

/-- The outcome is the one `f` gives, or a memory `C` allows. -/
def Follows (f : Option (α × σ)) (C : σ → Prop) (power : Option ℕ) : Outcome σ α → Prop
  | .done a t power' => f = some (a, t) ∧ (power = none → power' = none)
  | .cut t => C t ∧ power ≠ none
  | .hang => f = none

theorem Follows.mono {f g : Option (α × σ)} {C D : σ → Prop} {power : Option ℕ} {o : Outcome σ α}
    (h : o.Follows f C power) (hfg : f = g) (hCD : ∀ t, C t → D t) : o.Follows g D power := by
  subst hfg
  cases o with
  | done a t power' => exact h
  | cut t => exact ⟨hCD t h.1, h.2⟩
  | hang => exact h

/-- A power failure in `c >>= k` comes in `c`, or behind its end. -/
theorem Follows.bind {c : Prog σ α} {k : α → Prog σ β} {s : σ} {power : Option ℕ}
    {f : Option (α × σ)} {g : α × σ → Option (β × σ)} {h : Option (β × σ)} {C : σ → Prop}
    (hc : (c s power).Follows f C power)
    (hk : ∀ a t power', f = some (a, t) → (k a t power').Follows (g (a, t)) C power')
    (hfg : f.bind g = h) : ((c >>= k) s power).Follows h C power := by
  subst hfg
  show (Prog.bind c k s power).Follows _ _ power
  unfold Prog.bind
  cases hrun : c s power with
  | done a t power' =>
    rw [hrun] at hc
    have ht := hk a t power' hc.1
    rw [hc.1]
    show (k a t power').Follows (g (a, t)) C power
    cases hrest : k a t power' with
    | done b u power'' =>
      rw [hrest] at ht
      exact ⟨ht.1, fun hp => ht.2 (hc.2 hp)⟩
    | cut u =>
      rw [hrest] at ht
      exact ⟨ht.1, fun hp => ht.2 (hc.2 hp)⟩
    | hang =>
      rw [hrest] at ht
      exact ht
  | cut t =>
    rw [hrun] at hc
    exact hc
  | hang =>
    rw [hrun] at hc
    rw [show f = none from hc]
    exact rfl

/-- With power that lasts, the run ends as `f` says. -/
theorem Follows.done {f : Option (α × σ)} {C : σ → Prop} {o : Outcome σ α} {a : α} {t : σ}
    (h : o.Follows f C none) (hf : f = some (a, t)) : o = .done a t none := by
  subst hf
  cases o with
  | done b u power' =>
    obtain ⟨h1, h2⟩ := h
    cases h1
    rw [h2 rfl]
  | cut u => exact absurd rfl h.2
  | hang => cases h

end Outcome

/-! ## All runs -/

/-- `c` ends as `f` says, and hangs where `f` gives nothing; a power failure in a run
    from `s` leaves a memory in `C s`. -/
def Refines (c : Prog σ α) (f : σ → Option (α × σ)) (C : σ → σ → Prop) : Prop :=
  ∀ s power, (c s power).Follows (f s) (C s) power

namespace Refines

variable {f : σ → Option (α × σ)} {C D : σ → σ → Prop}

theorem mono {c : Prog σ α} {g : σ → Option (α × σ)} (h : Refines c f C) (hfg : ∀ s, f s = g s)
    (hCD : ∀ s t, C s t → D s t) : Refines c g D :=
  fun s power => (h s power).mono (hfg s) (hCD s)

theorem pure (a : α) : Refines (Pure.pure a : Prog σ α) (fun s => some (a, s)) C :=
  fun _ _ => ⟨rfl, id⟩

theorem op (f : σ → σ) : Refines (Prog.op f) (fun s => some ((), f s)) fun s t => t = s := by
  intro s power
  cases power with
  | none => exact ⟨rfl, id⟩
  | some n =>
    cases n with
    | zero => exact ⟨rfl, nofun⟩
    | succ n => exact ⟨rfl, nofun⟩

theorem stall : Refines (Prog.stall : Prog σ α) (fun _ => none) fun s t => t = s := by
  intro s power
  cases power with
  | none => exact rfl
  | some n => exact ⟨rfl, nofun⟩

theorem check (b : Bool) : Refines (Prog.check b : Prog σ Unit)
    (fun s => if b then some ((), s) else none) fun s t => t = s := by
  cases b with
  | true => exact Refines.pure ()
  | false => exact Refines.stall

theorem bind {c : Prog σ α} {k : α → Prog σ β} {g : α → σ → Option (β × σ)}
    {D : α → σ → σ → Prop} (hc : Refines c f C) (hk : ∀ a, Refines (k a) (g a) (D a)) :
    Refines (c >>= k) (fun s => (f s).bind fun r => g r.1 r.2)
      fun s t => C s t ∨ ∃ a s', f s = some (a, s') ∧ D a s' t := by
  intro s power
  refine ((hc s power).mono rfl fun t ht => Or.inl ht).bind (fun a s' power' hf => ?_) rfl
  exact (hk a s' power').mono rfl fun t ht => Or.inr ⟨a, s', hf, ht⟩

/-- A program over a part of the memory. -/
theorem zoom {get : σ → τ} {set : σ → τ → σ} {c : Prog τ α} {f : τ → Option (α × τ)}
    {C : τ → τ → Prop} (h : Refines c f C) :
    Refines (Prog.zoom get set c) (fun s => (f (get s)).map fun r => (r.1, set s r.2))
      fun s t => ∃ u, C (get s) u ∧ t = set s u := by
  intro s power
  have hs := h (get s) power
  unfold Prog.zoom
  cases hrun : c (get s) power with
  | done a t power' =>
    rw [hrun] at hs
    refine ⟨?_, hs.2⟩
    show (f (get s)).map _ = _
    rw [hs.1]
    rfl
  | cut t =>
    rw [hrun] at hs
    exact ⟨⟨t, hs.1, rfl⟩, hs.2⟩
  | hang =>
    rw [hrun] at hs
    show (f (get s)).map _ = none
    rw [show f (get s) = none from hs]
    rfl

end Refines

/-! ## Counting operations -/

/-- With power that lasts, a run of `c` hangs, or ends after a number of operations; with
    that much power or more it ends in the same way. -/
def Metered (c : Prog σ α) : Prop :=
  ∀ s, c s none = .hang ∨
    ∃ a t n, c s none = .done a t none ∧ ∀ j, c s (some (n + j)) = .done a t (some j)

namespace Metered

theorem pure (a : α) : Metered (Pure.pure a : Prog σ α) :=
  fun s => Or.inr ⟨a, s, 0, rfl, fun j => by rw [Nat.zero_add]; rfl⟩

theorem get (f : σ → α) : Metered (Prog.get f) :=
  fun s => Or.inr ⟨f s, s, 0, rfl, fun j => by rw [Nat.zero_add]; rfl⟩

theorem record (f : σ → σ) : Metered (Prog.record f) :=
  fun s => Or.inr ⟨(), f s, 0, rfl, fun j => by rw [Nat.zero_add]; rfl⟩

theorem op (f : σ → σ) : Metered (Prog.op f) :=
  fun s => Or.inr ⟨(), f s, 1, rfl, fun j => by rw [Nat.add_comm]; rfl⟩

theorem stall : Metered (Prog.stall : Prog σ α) := fun _ => Or.inl rfl

theorem check (b : Bool) : Metered (Prog.check b : Prog σ Unit) := by
  cases b with
  | true => exact Metered.pure ()
  | false => exact Metered.stall

theorem bind {c : Prog σ α} {k : α → Prog σ β} (hc : Metered c) (hk : ∀ a, Metered (k a)) :
    Metered (c >>= k) := by
  intro s
  rcases hc s with h | ⟨a, t, n, hnone, hsome⟩
  · left
    show Prog.bind c k s none = .hang
    unfold Prog.bind
    rw [h]
  · rcases hk a t with h | ⟨b, u, n', hnone', hsome'⟩
    · left
      rw [Prog.bind_of_done hnone, h]
    · right
      refine ⟨b, u, n + n', ?_, fun j => ?_⟩
      · rw [Prog.bind_of_done hnone, hnone']
      · rw [Nat.add_assoc, Prog.bind_of_done (hsome (n' + j)), hsome']

theorem ite {p : Prop} [Decidable p] {c d : Prog σ α} (hc : Metered c) (hd : Metered d) :
    Metered (if p then c else d) := by
  split_ifs
  · exact hc
  · exact hd

theorem zoom {get : σ → τ} {set : σ → τ → σ} {c : Prog τ α} (hc : Metered c) :
    Metered (Prog.zoom get set c) := by
  intro s
  rcases hc (get s) with h | ⟨a, t, n, hnone, hsome⟩
  · left
    unfold Prog.zoom
    rw [h]
  · right
    refine ⟨a, set s t, n, ?_, fun j => ?_⟩
    · unfold Prog.zoom
      rw [hnone]
    · unfold Prog.zoom
      rw [hsome]

/-- What is cut behind the end of a run of `c` is cut in the rest. -/
theorem cut_bind {c : Prog σ α} {k : α → Prog σ β} (hc : Metered c) {s t u : σ} {a : α} {n : ℕ}
    (h : c s none = .done a t none) (hk : k a t (some n) = .cut u) :
    ∃ n', (c >>= k) s (some n') = .cut u := by
  rcases hc s with hhang | ⟨b, v, i, hnone, hsome⟩
  · rw [h] at hhang
    cases hhang
  · rw [h] at hnone
    cases hnone
    exact ⟨i + n, by rw [Prog.bind_of_done (hsome n), hk]⟩

end Metered

/-! ## What every operation keeps -/

/-- The memory is in `P` when the run ends or the power fails. -/
def Outcome.All (P : σ → Prop) : Outcome σ α → Prop
  | .done _ t _ => P t
  | .cut t => P t
  | .hang => True

/-- `c` leaves `P` only if it starts outside of it. -/
def Keeps (P : σ → Prop) (c : Prog σ α) : Prop := ∀ s power, P s → (c s power).All P

namespace Keeps

variable {P : σ → Prop}

theorem pure (a : α) : Keeps P (Pure.pure a : Prog σ α) := fun _ _ hs => hs

theorem op {f : σ → σ} (h : ∀ s, P s → P (f s)) : Keeps P (Prog.op f) := by
  intro s power hs
  cases power with
  | none => exact h s hs
  | some n =>
    cases n with
    | zero => exact hs
    | succ n => exact h s hs

theorem assert (b : Bool) : Keeps P (Prog.assert b : Prog σ Unit) := by
  intro s power hs
  unfold Prog.assert
  cases b with
  | true => exact hs
  | false => exact trivial

theorem bind {c : Prog σ α} {k : α → Prog σ β} (hc : Keeps P c) (hk : ∀ a, Keeps P (k a)) :
    Keeps P (c >>= k) := by
  intro s power hs
  have h := hc s power hs
  show (Prog.bind c k s power).All P
  unfold Prog.bind
  cases hrun : c s power with
  | done a t power' =>
    rw [hrun] at h
    exact hk a t power' h
  | cut t =>
    rw [hrun] at h
    exact h
  | hang => exact trivial

/-- A program that goes on with what it has read. -/
theorem get_bind {f : σ → α} {k : α → Prog σ β} (hk : ∀ s, P s → Keeps P (k (f s))) :
    Keeps P (Prog.get f >>= k) := fun s power hs => hk s hs s power hs

theorem ite {p : Prop} [Decidable p] {c d : Prog σ α} (hc : Keeps P c) (hd : Keeps P d) :
    Keeps P (if p then c else d) := by
  split_ifs
  · exact hc
  · exact hd

theorem done {c : Prog σ α} (h : Keeps P c) {s t : σ} {a : α} {power power' : Option ℕ} (hs : P s)
    (hrun : c s power = .done a t power') : P t := by
  have ht := h s power hs
  rw [hrun] at ht
  exact ht

/-- Any number of runs that are cut keep `P`. -/
theorem cutRuns {c : Prog σ α} (h : Keeps P c) {s t : σ} (hs : P s) (hcuts : CutRuns c s t) :
    P t := by
  induction hcuts with
  | none => exact hs
  | @cut s s' s'' n hrun _ ih =>
    have hs' := h s (some n) hs
    rw [hrun] at hs'
    exact ih hs'

end Keeps

end PowerCut
