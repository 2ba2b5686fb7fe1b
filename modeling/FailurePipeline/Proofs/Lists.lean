import Mathlib.Algebra.GroupWithZero.Nat

/-!
# Counting in lists

How a count and a sum change when one place of a list is set, and a sum of zeros.
-/

namespace FailurePipeline

theorem countP_set_add {α : Type} {l : List α} {i : Nat} {a : α} (hi : l[i]? = some a) (a' : α)
    (p : α → Bool) :
    (l.set i a').countP p + (if p a then 1 else 0) = l.countP p + if p a' then 1 else 0 := by
  obtain ⟨hlt, rfl⟩ := List.getElem?_eq_some_iff.1 hi
  rw [List.countP_set hlt]
  have : (if p l[i] = true then 1 else 0) ≤ l.countP p := List.boole_getElem_le_countP hlt
  omega

theorem countP_set_add_toNat {α : Type} {l : List α} {i : Nat} {a : α} (hi : l[i]? = some a) (a' : α)
    (p : α → Bool) : (l.set i a').countP p + (p a).toNat = l.countP p + (p a').toNat := by
  have := countP_set_add hi a' p
  cases hp : p a <;> cases hp' : p a' <;> simpa [hp, hp'] using this

/-- Setting a place to something that counts as much leaves the count alone. -/
theorem countP_set_of_eq {α : Type} {l : List α} {i : Nat} {a a' : α} (hi : l[i]? = some a) {p : α → Bool}
    (h : p a' = p a) : (l.set i a').countP p = l.countP p := by
  have := countP_set_add_toNat hi a' p
  rw [h] at this
  omega

theorem sum_map_set_add {α : Type} {l : List α} {i : Nat} {a : α} (hi : l[i]? = some a) (a' : α) (f : α → Nat) :
    ((l.set i a').map f).sum + f a = (l.map f).sum + f a' := by
  induction l generalizing i with
  | nil => simp at hi
  | cons b l ih =>
    cases i with
    | zero =>
      obtain rfl : b = a := by simpa using hi
      simp only [List.set_cons_zero, List.map_cons, List.sum_cons]
      omega
    | succ i =>
      have hrest := ih (by simpa using hi)
      simp only [List.set_cons_succ, List.map_cons, List.sum_cons]
      omega

theorem sum_map_eq_zero {α : Type} {l : List α} {f : α → Nat} (h : ∀ a ∈ l, f a = 0) : (l.map f).sum = 0 := by
  rw [List.sum_eq_zero_iff_forall_eq_nat]
  simpa using h

end FailurePipeline
