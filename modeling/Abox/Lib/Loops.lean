import Mathlib

/-!
# `while` loops that may not end

`whileLoop cond body fuel s` tests `cond` at most `fuel + 1` times; `none` means
that the loop has not ended by then, or that a run of the body did not.

* `whileLoop_mono`: more fuel does not change a result.
* `whileLoop_inv`: the invariant rule; `whileLoop_rel`: the rule for a relation between the
  states before and behind.
* `whileLoop_yields_iff`: a loop that goes on yields what it yields after one pass.
* `forIndex_yields_iff`, `forIndex_wraps`: a loop over the numbers below a bound has a pass for
  each of them, unless its index wraps below the bound.
-/

namespace Loops

variable {σ : Type}

def whileLoop (cond : σ → Bool) (body : σ → Option σ) : ℕ → σ → Option σ
  | 0, s => if cond s then none else some s
  | fuel + 1, s => if cond s then (body s).bind (whileLoop cond body fuel) else some s

theorem whileLoop_of_not {cond : σ → Bool} {body : σ → Option σ} {s : σ} (h : cond s = false)
    (fuel : ℕ) : whileLoop cond body fuel s = some s := by
  cases fuel <;> simp [whileLoop, h]

theorem whileLoop_succ {cond : σ → Bool} {body : σ → Option σ} {s : σ} (h : cond s = true)
    (fuel : ℕ) : whileLoop cond body (fuel + 1) s = (body s).bind (whileLoop cond body fuel) := by
  simp [whileLoop, h]

/-- More fuel does not change a result, also when the body gets more fuel. -/
theorem whileLoop_mono {cond : σ → Bool} {body body' : σ → Option σ} {fuel fuel' : ℕ} {s t : σ}
    (hb : ∀ s t, body s = some t → body' s = some t) (hf : fuel ≤ fuel')
    (h : whileLoop cond body fuel s = some t) : whileLoop cond body' fuel' s = some t := by
  induction fuel generalizing fuel' s with
  | zero =>
    cases hc : cond s with
    | true => simp [whileLoop, hc] at h
    | false => rw [whileLoop_of_not hc] at h ⊢; exact h
  | succ fuel ih =>
    obtain ⟨m, rfl⟩ : ∃ m, fuel' = m + 1 := ⟨fuel' - 1, by omega⟩
    cases hc : cond s with
    | true =>
      rw [whileLoop_succ hc] at h ⊢
      obtain ⟨s', hs', h⟩ := Option.bind_eq_some_iff.1 h
      rw [hb _ _ hs', Option.bind_some]
      exact ih (by omega) h
    | false => rw [whileLoop_of_not hc] at h ⊢; exact h

/-- The invariant rule: what the body keeps holds at the end, where the
    condition is false. -/
theorem whileLoop_inv {cond : σ → Bool} {body : σ → Option σ} (Inv : σ → Prop)
    (hbody : ∀ s t, Inv s → cond s = true → body s = some t → Inv t) {fuel : ℕ} {s t : σ}
    (h : whileLoop cond body fuel s = some t) (h0 : Inv s) : Inv t ∧ cond t = false := by
  induction fuel generalizing s with
  | zero =>
    cases hc : cond s with
    | true => simp [whileLoop, hc] at h
    | false => rw [whileLoop_of_not hc] at h; cases h; exact ⟨h0, hc⟩
  | succ fuel ih =>
    cases hc : cond s with
    | true =>
      rw [whileLoop_succ hc] at h
      obtain ⟨s', hs', h⟩ := Option.bind_eq_some_iff.1 h
      exact ih h (hbody _ _ h0 hc hs')
    | false => rw [whileLoop_of_not hc] at h; cases h; exact ⟨h0, hc⟩

/-- What relates the state before a pass to the one behind it relates the state before the
    loop to the one behind the loop. -/
theorem whileLoop_rel {cond : σ → Bool} {f : σ → σ} {R : σ → σ → Prop} (hrefl : ∀ s, R s s)
    (htrans : ∀ {s t u}, R s t → R t u → R s u) (hf : ∀ s, R s (f s)) {fuel : ℕ} {s t : σ}
    (h : whileLoop cond (fun s => some (f s)) fuel s = some t) : R s t := by
  refine (whileLoop_inv (R s) ?_ h (hrefl s)).1
  intro u v hu _ hv
  obtain rfl := Option.some.inj hv
  exact htrans hu (hf u)

/-- One pass of a loop, the body having as much fuel as the loop. -/
theorem whileLoop_yields_iff {cond : σ → Bool} {body : ℕ → σ → Option σ}
    (hb : ∀ fuel fuel' s t, fuel ≤ fuel' → body fuel s = some t → body fuel' s = some t)
    {s t : σ} (hc : cond s = true) :
    (∃ fuel, whileLoop cond (body fuel) fuel s = some t) ↔
      ∃ fuel s', body fuel s = some s' ∧ ∃ fuel, whileLoop cond (body fuel) fuel s' = some t := by
  constructor
  · rintro ⟨fuel, h⟩
    cases fuel with
    | zero => simp [whileLoop, hc] at h
    | succ fuel =>
      rw [whileLoop_succ hc] at h
      obtain ⟨s', hs', h⟩ := Option.bind_eq_some_iff.1 h
      exact ⟨fuel + 1, s', hs', fuel + 1,
        whileLoop_mono (fun _ _ h => h) (Nat.le_succ fuel) h⟩
  · rintro ⟨n, s', hs', m, h⟩
    refine ⟨max n m + 1, ?_⟩
    rw [whileLoop_succ hc, hb _ _ _ _ (by omega) hs', Option.bind_some]
    exact whileLoop_mono (fun u v huv => hb _ _ u v (by omega) huv) (by omega) h

/-- One pass of a loop whose body needs no fuel. -/
theorem whileLoop_pass_iff {cond : σ → Bool} {body : σ → Option σ} {s t : σ}
    (hc : cond s = true) : (∃ fuel, whileLoop cond body fuel s = some t) ↔
      ∃ s', body s = some s' ∧ ∃ fuel, whileLoop cond body fuel s' = some t := by
  have hone := @whileLoop_yields_iff _ cond (fun _ => body) (fun _ _ _ _ _ h => h) s t hc
  rw [hone]
  exact ⟨fun ⟨_, h⟩ => h, fun h => ⟨0, h⟩⟩

/-! ## Loops over a number -/

/-- `for (index = 0; index < max; index++)` with an `index` that counts modulo `size`. -/
def forIndex (size : ℕ) (max : ℤ) (body : ℕ → σ → σ) (fuel : ℕ) (s : σ) : Option σ :=
  (whileLoop (fun s : ℕ × σ => (s.1 : ℤ) < max) (fun s => some ((s.1 + 1) % size, body s.1 s.2))
    fuel (0, s)).map Prod.snd

theorem whileLoop_index {size : ℕ} {max : ℤ} (body : ℕ → σ → σ) (h : max < size)
    {i n : ℕ} (hn : max.toNat = i + n) (s : σ) :
    whileLoop (fun s : ℕ × σ => (s.1 : ℤ) < max)
        (fun s => some ((s.1 + 1) % size, body s.1 s.2)) n (i, s) =
      some (i + n, (List.range' i n).foldl (fun s i => body i s) s) := by
  induction n generalizing i s with
  | zero =>
    rw [whileLoop_of_not (by simp; omega)]
    rfl
  | succ n ih =>
    rw [whileLoop_succ (by simp; omega), Option.bind_some]
    dsimp only
    rw [Nat.mod_eq_of_lt (by omega), ih (by omega), List.range'_succ, List.foldl_cons]
    congr 2
    omega

/-- A loop whose index does not wrap has a pass for each number below `max`: what it yields is
    what these passes yield. -/
theorem forIndex_yields_iff {size : ℕ} {max : ℤ} (body : ℕ → σ → σ) (h : max < size) (s : σ)
    (P : σ → Prop) :
    (∃ fuel t, forIndex size max body fuel s = some t ∧ P t) ↔
      P ((List.range max.toNat).foldl (fun s i => body i s) s) := by
  have hrun := whileLoop_index body h (Nat.zero_add max.toNat).symm s
  rw [← List.range_eq_range'] at hrun
  constructor
  · rintro ⟨fuel, t, ht, hP⟩
    obtain ⟨⟨i, u⟩, hu, rfl⟩ := Option.map_eq_some_iff.1 ht
    have h1 := whileLoop_mono (fun _ _ h => h) (Nat.le_max_left fuel max.toNat) hu
    have h2 := whileLoop_mono (fun _ _ h => h) (Nat.le_max_right fuel max.toNat) hrun
    rw [h1] at h2
    obtain rfl := congrArg Prod.snd (Option.some.inj h2)
    exact hP
  · exact fun hP => ⟨max.toNat, _, by rw [forIndex, hrun, Option.map_some], hP⟩

/-- A loop whose index wraps below `max` does not end. -/
theorem forIndex_wraps {size : ℕ} {max : ℤ} (body : ℕ → σ → σ) (hpos : 0 < size)
    (h : size ≤ max) (fuel : ℕ) (s : σ) : forIndex size max body fuel s = none := by
  rw [forIndex, Option.map_eq_none_iff, Option.eq_none_iff_forall_ne_some]
  intro t ht
  -- The index stays below `size`, where the condition holds.
  obtain ⟨hlt, hcond⟩ := whileLoop_inv (fun s : ℕ × σ => s.1 < size) (by
    intro u v _ _ huv
    cases huv
    exact Nat.mod_lt _ hpos) ht hpos
  rw [decide_eq_false_iff_not] at hcond
  omega

end Loops
