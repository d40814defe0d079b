import Mathlib

/-!
# Blocks of a heap

A record of what is done with the blocks of a heap and with the pointers to them, in
order.

* `clean_append`: a record is clean part by part.
* `Clean.count_free_le`: in a clean record no block is freed twice.
* `Clean.okAfter_overwrite`: the pointer to a block may be overwritten iff the block
  was freed.
-/

namespace Blocks

variable {β : Type} [DecidableEq β]

/-- A block is freed, it is read or written, or the pointer that holds it is
    overwritten. -/
inductive Op (β : Type)
  | free (b : β)
  | use (b : β)
  | overwrite (b : β)
  deriving DecidableEq

/-- What may follow `ops`: a block is used or freed only if it was not freed, and its
    pointer is overwritten when it was freed once. -/
def OkAfter (ops : List (Op β)) : Op β → Prop
  | .free b => .free b ∉ ops
  | .use b => .free b ∉ ops
  | .overwrite b => ops.count (.free b) = 1

instance (ops : List (Op β)) : ∀ op, Decidable (OkAfter ops op)
  | .free b => inferInstanceAs (Decidable (.free b ∉ ops))
  | .use b => inferInstanceAs (Decidable (.free b ∉ ops))
  | .overwrite b => inferInstanceAs (Decidable (ops.count (.free b) = 1))

/-- Each operation may follow the ones in front of it and those of `ops`. -/
def CleanFrom : List (Op β) → List (Op β) → Prop
  | _, [] => True
  | ops, op :: rest => OkAfter ops op ∧ CleanFrom (ops ++ [op]) rest

def decidableCleanFrom : ∀ ops rest : List (Op β), Decidable (CleanFrom ops rest)
  | _, [] => .isTrue trivial
  | ops, op :: rest =>
    have := decidableCleanFrom (ops ++ [op]) rest
    inferInstanceAs (Decidable (OkAfter ops op ∧ CleanFrom (ops ++ [op]) rest))

def Clean (ops : List (Op β)) : Prop := CleanFrom [] ops

instance (ops : List (Op β)) : Decidable (Clean ops) := decidableCleanFrom [] ops

@[simp] theorem cleanFrom_nil (ops : List (Op β)) : CleanFrom ops [] := trivial

@[simp] theorem cleanFrom_cons (ops : List (Op β)) (op : Op β) (rest : List (Op β)) :
    CleanFrom ops (op :: rest) ↔ OkAfter ops op ∧ CleanFrom (ops ++ [op]) rest := Iff.rfl

theorem cleanFrom_append (pre xs ys : List (Op β)) :
    CleanFrom pre (xs ++ ys) ↔ CleanFrom pre xs ∧ CleanFrom (pre ++ xs) ys := by
  induction xs generalizing pre with
  | nil => simp
  | cons x xs ih =>
    rw [List.cons_append, cleanFrom_cons, cleanFrom_cons, ih, and_assoc, List.append_assoc,
      List.singleton_append]

theorem clean_append (xs ys : List (Op β)) :
    Clean (xs ++ ys) ↔ Clean xs ∧ CleanFrom xs ys := cleanFrom_append [] xs ys

theorem Clean.of_append {xs ys : List (Op β)} (h : Clean (xs ++ ys)) : Clean xs :=
  ((clean_append xs ys).1 h).1

/-- No block is freed twice. -/
theorem Clean.count_free_le {ops : List (Op β)} (h : Clean ops) (b : β) :
    ops.count (.free b) ≤ 1 := by
  induction ops using List.reverseRecOn with
  | nil => exact Nat.zero_le 1
  | append_singleton ops op ih =>
    obtain ⟨hops, hop, _⟩ := (clean_append ops [op]).1 h
    -- Either the block is freed now, and was not before, or nothing changes for it.
    by_cases hb : op = .free b
    · subst hb
      have hnone : ops.count (.free b) = 0 := List.count_eq_zero.2 hop
      rw [List.count_append, hnone, List.count_singleton_self]
    · rw [List.count_append, List.count_singleton, beq_false_of_ne hb]
      exact ih hops

/-- The pointer to a block may be overwritten iff the block was freed. -/
theorem Clean.okAfter_overwrite {ops : List (Op β)} (h : Clean ops) (b : β) :
    OkAfter ops (.overwrite b) ↔ .free b ∈ ops := by
  have hle := h.count_free_le b
  rw [← List.count_pos_iff]
  show ops.count (.free b) = 1 ↔ _
  omega

end Blocks
