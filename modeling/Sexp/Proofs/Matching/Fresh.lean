import Sexp.Proofs.Filling.Holes
import Sexp.Proofs.Matching.Solution

/-!
# Matching from nothing

A match that starts from no bindings finds the holes and nothing else. So it undoes filling, up to
the entries that are no holes (`substitute_eq_ok_iff_solve_restrict`), and a match that starts from
other bindings comes to the same as merging what it finds into them
(`matchInto_eq_ok_iff_solve_merge`). A tree that one pattern matches can then be rewritten by
another: every instance of the left pattern becomes the same instance of the right one, as long as
the right pattern has no hole that the left one lacks (`rewrite_instance`).
-/

namespace Sexp

namespace Pattern

variable {p : Pattern} {t : Tree} {b c f : Bindings}

theorem solve_eq_ok_iff :
    p.solve t = .ok f ↔
      (p.matchInto t ∅).result = .ok () ∧ (p.matchInto t ∅).bindings = f := by
  rw [solve]
  cases (p.matchInto t ∅).result <;> simp [Except.map]

theorem substitute_of_solve (solved : p.solve t = .ok f) : p.substitute f = .ok t := by
  obtain ⟨passed, rfl⟩ := solve_eq_ok_iff.1 solved
  exact substitute_of_matchInto passed

theorem exists_solve_le (solution : p.substitute c = .ok t) : ∃ f, p.solve t = .ok f ∧ f ≤ c := by
  have within : (p.matchInto t ∅).Within c :=
    (matchInto_within_iff p t (Bindings.empty_le c)).2 solution
  exact ⟨_, solve_eq_ok_iff.2 ⟨within.1, rfl⟩, within.2⟩

theorem contains_iff_of_solve (solved : p.solve t = .ok f) (name : String) :
    f.contains name ↔ name ∈ p.holes := by
  obtain ⟨passed, rfl⟩ := solve_eq_ok_iff.1 solved
  rw [contains_matchInto_iff passed]
  simp

/-- A fresh match finds the solution that binds the holes and nothing else. -/
theorem solve_eq_ok_iff_substitute :
    p.solve t = .ok f ↔ p.substitute f = .ok t ∧ ∀ name, f.contains name ↔ name ∈ p.holes := by
  constructor
  · intro solved
    exact ⟨substitute_of_solve solved, contains_iff_of_solve solved⟩
  · intro solution
    obtain ⟨filled, names⟩ := solution
    obtain ⟨g, solved, le⟩ := exists_solve_le filled
    have bound : ∀ name, f.contains name → g.contains name := by
      intro name bound
      rw [contains_iff_of_solve solved, ← names]
      exact bound
    rw [solved, Bindings.eq_of_le le bound]

theorem substitute_of_le (solved : p.substitute b = .ok t) (le : b ≤ c) :
    p.substitute c = .ok t := by
  have within : (p.matchInto t b).Within b := (matchInto_within_iff p t (le_refl b)).2 solved
  exact (matchInto_within_iff p t le).1 ⟨within.1, le_trans within.2 le⟩

/-- Filling sees the holes only, and a pattern filled with `b` is a tree exactly when a fresh match
against that tree finds again what `b` binds the holes to. -/
theorem substitute_eq_ok_iff_solve_restrict (p : Pattern) (b : Bindings) :
    p.substitute (b.restrict p.holes) = p.substitute b ∧
      ∀ t, p.substitute b = .ok t ↔ p.solve t = .ok (b.restrict p.holes) := by
  have unrelated : p.substitute (b.restrict p.holes) = p.substitute b :=
    congrArg Filling.result (p.fill_restrict_holes b)
  refine ⟨unrelated, fun t => ?_⟩
  rw [← unrelated]
  constructor
  · intro filled
    obtain ⟨f, solved, le⟩ := exists_solve_le filled
    have names : ∀ name, (b.restrict p.holes).contains name → f.contains name := by
      intro name bound
      rw [contains_iff_of_solve solved]
      exact (Bindings.contains_restrict.1 bound).1
    rw [solved, Bindings.eq_of_le le names]
  · exact substitute_of_solve

theorem matchInto_within_merge (solved : p.solve t = .ok f) (agrees : b.Agrees f) :
    (p.matchInto t b).Within (b.merge f) := by
  have solution : p.substitute (b.merge f) = .ok t :=
    substitute_of_le (substitute_of_solve solved) (Bindings.le_merge_right b f)
  exact (matchInto_within_iff p t (Bindings.le_merge_left agrees)).2 solution

theorem merge_le_matchInto (passed : (p.matchInto t b).result = .ok ())
    (solved : p.solve t = .ok f) : b.merge f ≤ (p.matchInto t b).bindings := by
  -- What the match leaves is a solution, and the fresh match lies below every solution.
  obtain ⟨g, found, le⟩ := exists_solve_le (substitute_of_matchInto passed)
  rw [solved] at found
  obtain rfl := Except.ok.inj found
  exact Bindings.merge_le (p.matchInto_grows t b).keeps le

/-- A match succeeds on bindings already made exactly when a fresh match succeeds and what it finds
agrees with them; it then leaves the two merged. -/
theorem matchInto_eq_ok_iff_solve_merge (p : Pattern) (t : Tree) (b₀ b₁ : Bindings) :
    (p.matchInto t b₀).result = .ok () ∧ (p.matchInto t b₀).bindings = b₁ ↔
      ∃ f, p.solve t = .ok f ∧ b₀.Agrees f ∧ b₁ = b₀.merge f := by
  constructor
  · intro matched
    obtain ⟨passed, rfl⟩ := matched
    obtain ⟨f, solved, le⟩ := exists_solve_le (substitute_of_matchInto passed)
    have agrees : b₀.Agrees f := .of_le (p.matchInto_grows t b₀).keeps le
    have within := matchInto_within_merge solved agrees
    exact ⟨f, solved, agrees, le_antisymm within.2 (merge_le_matchInto passed solved)⟩
  · intro merged
    obtain ⟨f, solved, agrees, rfl⟩ := merged
    have within := matchInto_within_merge solved agrees
    exact ⟨within.1, le_antisymm within.2 (merge_le_matchInto within.1 solved)⟩

end Pattern

/-! ## Rewriting a tree by two patterns -/

namespace Pattern

variable {lhs rhs : Pattern} {t : Tree} {b s : Bindings} {name : String}

theorem contains_eq_mem_holes (matched : lhs.solve t = .ok b) (name : String) :
    b.contains name = decide (name ∈ lhs.holes) := by
  rw [Bool.eq_iff_iff, contains_iff_of_solve matched, decide_eq_true_iff]

theorem substitute_of_instance {u : Tree} (matched : lhs.solve t = .ok b)
    (solution : lhs.substitute s = .ok t) (filled : rhs.substitute b = .ok u) :
    rhs.substitute s = .ok u := by
  obtain ⟨f, found, le⟩ := exists_solve_le solution
  rw [matched] at found
  obtain rfl := Except.ok.inj found
  exact substitute_of_le filled le

theorem exists_substitute_of_solve (bound : ∀ name ∈ rhs.holes, name ∈ lhs.holes)
    (matched : lhs.solve t = .ok b) : ∃ u, rhs.substitute b = .ok u := by
  apply exists_substitute_iff.2
  intro name hole
  exact (contains_iff_of_solve matched name).2 (bound name hole)

theorem substitute_eq_error_of_solve
    (first : rhs.holes.find? (fun name => decide (name ∉ lhs.holes)) = some name)
    (matched : lhs.solve t = .ok b) : rhs.substitute b = .error ⟨name⟩ := by
  rw [substitute_eq_error_iff, ← first]
  congr 1
  funext other
  rw [contains_eq_mem_holes matched, decide_not]

/-- A rewriting step is right on every instance. Where all holes on the right occur on the left,
each match gives a tree, every instance of the left pattern is matched, and that tree is the
instance of the right pattern, whatever else is bound. Otherwise every match is in vain, for the
first hole on the right that the left lacks. -/
theorem rewrite_instance (lhs rhs : Pattern) :
    ((∀ name ∈ rhs.holes, name ∈ lhs.holes) → ∀ t,
      (∀ b, lhs.solve t = .ok b → ∃ u, rhs.substitute b = .ok u ∧
        ∀ s, lhs.substitute s = .ok t → rhs.substitute s = .ok u) ∧
      ∀ s, lhs.substitute s = .ok t → ∃ b, lhs.solve t = .ok b) ∧
    ((∃ name ∈ rhs.holes, name ∉ lhs.holes) →
      ∃ name, rhs.holes.find? (fun name => decide (name ∉ lhs.holes)) = some name ∧
        ∀ t b, lhs.solve t = .ok b → rhs.substitute b = .error ⟨name⟩) := by
  constructor
  · intro bound t
    constructor
    · intro b matched
      obtain ⟨u, filled⟩ := exists_substitute_of_solve bound matched
      exact ⟨u, filled, fun s solution => substitute_of_instance matched solution filled⟩
    · intro s solution
      obtain ⟨b, matched, -⟩ := exists_solve_le solution
      exact ⟨b, matched⟩
  · intro unbound
    have some : (rhs.holes.find? fun name => decide (name ∉ lhs.holes)).isSome := by
      rw [List.find?_isSome]
      simpa only [decide_eq_true_eq] using unbound
    obtain ⟨name, first⟩ := Option.isSome_iff_exists.1 some
    exact ⟨name, first, fun t b matched => substitute_eq_error_of_solve first matched⟩

/-- A sum of two equal trees becomes a product, whatever else is bound; a product with a hole that
the sum lacks does not. -/
theorem rewrite_instance_doubled :
    let sum : Pattern := .list [.literal (.symbol "+"), .hole "x", .hole "x"]
    let product : Pattern := .list [.literal (.symbol "*"), .literal (.number 2), .hole "x"]
    let s : Bindings := .ofList [("x", .list [.invalid]), ("y", .number 7)]
    let t : Tree := .list [.symbol "+", .list [.invalid], .list [.invalid]]
    sum.substitute s = .ok t ∧ (∃ b, sum.solve t = .ok b ∧
      product.substitute b = .ok (.list [.symbol "*", .number 2, .list [.invalid]]) ∧
      (list [.hole "x", .hole "z", product]).substitute b = .error ⟨"z"⟩) := by
  intro sum product s t
  have bound : ∀ name ∈ product.holes, name ∈ sum.holes := by decide
  have solution : sum.substitute s = .ok t := rfl
  have target : product.substitute s = .ok (.list [.symbol "*", .number 2, .list [.invalid]]) := rfl
  obtain ⟨each, instances⟩ := (rewrite_instance sum product).1 bound t
  obtain ⟨b, matched⟩ := instances s solution
  obtain ⟨u, filled, same⟩ := each b matched
  obtain rfl := Except.ok.inj (target.symm.trans (same s solution))
  obtain ⟨name, first, vain⟩ :=
    (rewrite_instance sum (list [.hole "x", .hole "z", product])).2 ⟨"z", by decide, by decide⟩
  obtain rfl : "z" = name := by
    have found : (list [.hole "x", .hole "z", product]).holes.find?
        (fun name => decide (name ∉ sum.holes)) = some "z" := by decide
    exact Option.some.inj (found.symm.trans first)
  exact ⟨solution, b, matched, filled, vain t b matched⟩

end Pattern

end Sexp
