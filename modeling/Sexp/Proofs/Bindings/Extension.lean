import Mathlib.Order.Defs.PartialOrder
import Sexp.Bindings

/-!
# Bindings ordered by extension

`b ≤ c` says that every entry of `b` is an entry of `c`. Matching only ever goes up in this order,
and an extension that binds no further name is the same bindings (`eq_of_le`). Bindings that agree
wherever both bind a name have a least common extension, and merging them gives it; bindings that
have a common extension agree (`Agrees.of_le`).
-/

namespace Sexp

namespace Bindings

instance : PartialOrder Bindings where
  le b c := ∀ name tree, b.get? name = some tree → c.get? name = some tree
  le_refl _ _ _ found := found
  le_trans _ _ _ first second name tree found := second name tree (first name tree found)
  le_antisymm b c bc cb := by
    ext name tree
    exact ⟨bc name tree, cb name tree⟩

variable {b c d : Bindings} {name : String} {tree : Tree}

theorem get?_of_le (le : b ≤ c) (found : b.get? name = some tree) : c.get? name = some tree :=
  le name tree found

theorem contains_of_le (le : b ≤ c) (bound : b.contains name) : c.contains name := by
  rw [contains_eq, Option.isSome_iff_exists] at bound ⊢
  obtain ⟨tree, found⟩ := bound
  exact ⟨tree, get?_of_le le found⟩

theorem le_insert (unbound : b.get? name = none) : b ≤ b.insert name tree := by
  intro other u found
  have different : name ≠ other := by
    intro same
    simp [← same, unbound] at found
  rw [get?_insert, if_neg different]
  exact found

theorem insert_le_iff (le : b ≤ c) : b.insert name tree ≤ c ↔ c.get? name = some tree := by
  constructor
  · intro inserted
    exact get?_of_le inserted (by rw [get?_insert, if_pos rfl])
  · intro bound other u found
    rw [get?_insert] at found
    split at found
    next same => rw [← same, bound, ← found]
    next => exact get?_of_le le found

theorem eq_of_le (le : b ≤ c) (names : ∀ name, c.contains name → b.contains name) : b = c := by
  apply le_antisymm le
  intro name tree found
  have bound : b.contains name := names name (by rw [contains_eq, found]; rfl)
  rw [contains_eq, Option.isSome_iff_exists] at bound
  obtain ⟨u, earlier⟩ := bound
  rw [earlier, ← found]
  exact (get?_of_le le earlier).symm

/-- A name that both bind is bound to the same tree. -/
def Agrees (b c : Bindings) : Prop :=
  ∀ name t u, b.get? name = some t → c.get? name = some u → t = u

theorem empty_le (b : Bindings) : ∅ ≤ b := by
  intro name tree found
  rw [get?_empty] at found
  contradiction

theorem Agrees.of_le (left : b ≤ d) (right : c ≤ d) : b.Agrees c := by
  intro name t u first second
  have found : d.get? name = some t := get?_of_le left first
  rw [get?_of_le right second] at found
  exact (Option.some.inj found).symm

theorem le_merge_right (b c : Bindings) : c ≤ b.merge c := by
  intro name tree found
  rw [get?_merge, found, Option.some_or]

theorem le_merge_left (agrees : b.Agrees c) : b ≤ b.merge c := by
  intro name tree found
  rw [get?_merge]
  cases later : c.get? name with
  | none => exact found
  | some u =>
    have same : tree = u := agrees name tree u found later
    rw [Option.some_or, same]

theorem merge_le (left : b ≤ d) (right : c ≤ d) : b.merge c ≤ d := by
  intro name tree found
  rw [get?_merge, Option.or_eq_some_iff] at found
  rcases found with second | ⟨-, first⟩
  · exact get?_of_le right second
  · exact get?_of_le left first

end Bindings

end Sexp
