import Sexp.Pattern.Substitution

/-!
# Filling and holes

Filling reads the bindings at the holes of the pattern and nowhere else: bindings that answer alike
there give the same result and reach the same holes. It stops at the first hole, from left to right,
of which the name is not bound. A name that occurs again is bound or not as it was before, so the
distinct names tell as much as all the holes.
-/

namespace Sexp

namespace Pattern

variable {b c : Bindings}

theorem fillHole_congr {name : String} (same : b.get? name = c.get? name) :
    fillHole name b = fillHole name c := by
  rw [fillHole, fillHole, same]

theorem fillAll_congr {ps : List Pattern} (each : ∀ p ∈ ps, p.fill b = p.fill c) :
    fillAll ps b = fillAll ps c := by
  induction ps with
  | nil => rfl
  | cons p ps ih =>
    have first : p.fill b = p.fill c := each p List.mem_cons_self
    have later : fillAll ps b = fillAll ps c := ih fun q mem => each q (List.mem_cons_of_mem p mem)
    rw [fillAll, fillAll, first, later]

theorem fill_congr {p : Pattern}
    (same : ∀ name ∈ p.occurrences, b.get? name = c.get? name) : p.fill b = p.fill c := by
  induction p with
  | literal tree => rfl
  | hole name => exact fillHole_congr (same name (by simp [occurrences]))
  | list ps each =>
    have inside : ∀ p ∈ ps, p.fill b = p.fill c := by
      intro p mem
      apply each p mem
      intro name hole
      exact same name (mem_occurrences_list mem hole)
    rw [fill, fill, fillAll_congr inside]

theorem fill_restrict_holes (p : Pattern) (b : Bindings) :
    p.fill (b.restrict p.holes) = p.fill b := by
  apply fill_congr
  intro name hole
  rw [Bindings.get?_restrict, if_pos (mem_holes.2 hole)]

end Pattern

/-! ## The first unbound hole -/

/-- The name of the hole that could not be filled, if there is one. -/
def missing? : Except UnboundHole α → Option String
  | .ok _ => none
  | .error e => some e.name

theorem missing?_map (f : α → β) (result : Except UnboundHole α) :
    missing? (result.map f) = missing? result := by
  cases result <;> rfl

namespace Pattern

variable {p : Pattern} {b : Bindings} {name : String}

theorem missing?_substituteAll {ps : List Pattern}
    (each : ∀ p ∈ ps, missing? (p.substitute b) = p.occurrences.find? (!b.contains ·)) :
    missing? (substituteAll ps b) = (ps.flatMap occurrences).find? (!b.contains ·) := by
  induction ps with
  | nil => rfl
  | cons p ps ih =>
    have first := each p List.mem_cons_self
    have later := ih fun q mem => each q (List.mem_cons_of_mem p mem)
    rw [substituteAll_cons, List.flatMap_cons, List.find?_append, ← first, ← later]
    cases p.substitute b with
    | error e => rfl
    | ok t => exact missing?_map _ _

theorem missing?_substitute (p : Pattern) (b : Bindings) :
    missing? (p.substitute b) = p.occurrences.find? (!b.contains ·) := by
  induction p with
  | literal tree => rfl
  | hole name =>
    rw [substitute_hole, occurrences, List.find?_singleton, Bindings.contains_eq]
    cases b.get? name <;> rfl
  | list ps each =>
    rw [substitute_list, missing?_map, occurrences_list]
    exact missing?_substituteAll each

theorem find?_eraseDups (p : String → Bool) (names : List String) :
    names.eraseDups.find? p = names.find? p := by
  induction names using names_induction with
  | nil => rfl
  | cons name names ih =>
    rw [List.eraseDups_cons, List.find?_cons, List.find?_cons, ih]
    cases found : p name with
    | true => rfl
    | false =>
      -- What is equal to the first name is not looked for in the rest either.
      have kept : (fun other => decide ((!other == name) = true ∧ p other = true)) = p := by
        funext other
        by_cases same : other = name
        · simp [same, found]
        · simp [same]
      rw [List.find?_filter, kept]

theorem missing?_substitute_holes (p : Pattern) (b : Bindings) :
    missing? (p.substitute b) = p.holes.find? (!b.contains ·) := by
  rw [missing?_substitute, holes, find?_eraseDups]

theorem substitute_eq_error_iff :
    p.substitute b = .error ⟨name⟩ ↔ p.holes.find? (!b.contains ·) = some name := by
  rw [← missing?_substitute_holes]
  cases p.substitute b with
  | ok t => simp [missing?]
  | error e =>
    obtain ⟨other⟩ := e
    simp [missing?]

theorem exists_substitute_iff :
    (∃ t, p.substitute b = .ok t) ↔ ∀ name ∈ p.holes, b.contains name := by
  have none : missing? (p.substitute b) = none ↔ ∀ name ∈ p.holes, b.contains name := by
    rw [missing?_substitute_holes, List.find?_eq_none]
    simp only [Bool.not_eq_true', Bool.not_eq_false]
  rw [← none]
  cases p.substitute b <;> simp [missing?]

/-- The pattern `q` is the whole of another, or an element of a list at some depth in it. -/
inductive Part (q : Pattern) : Pattern → Prop where
  | whole : Part q q
  | element {p : Pattern} {ps : List Pattern} : p ∈ ps → Part q p → Part q (.list ps)

theorem hole_part_iff : (hole name).Part p ↔ name ∈ p.occurrences := by
  constructor
  · intro part
    induction part with
    | whole => exact List.mem_singleton_self name
    | element mem _ inside => exact mem_occurrences_list mem inside
  · intro hole
    induction p with
    | literal tree => contradiction
    | hole other =>
      obtain rfl : name = other := List.mem_singleton.1 hole
      exact .whole
    | list ps each =>
      rw [occurrences_list, List.mem_flatMap] at hole
      obtain ⟨p, mem, inside⟩ := hole
      exact .element mem (each p mem inside)

theorem find?_unbound_eq_some_iff {names : List String} :
    names.find? (!b.contains ·) = some name ↔ ∃ before after, names = before ++ name :: after ∧
      (∀ other ∈ before, b.get? other ≠ none) ∧ b.get? name = none := by
  have unbound : (!b.contains name) = true ↔ b.get? name = none := by simp
  have bound : ∀ other, (!!b.contains other) = true ↔ b.get? other ≠ none := by
    simp [Option.isSome_iff_ne_none]
  rw [List.find?_eq_some_iff_append]
  simp only [unbound, bound]
  constructor
  · intro first
    obtain ⟨missing, before, after, split, earlier⟩ := first
    exact ⟨before, after, split, earlier, missing⟩
  · intro first
    obtain ⟨before, after, split, earlier, missing⟩ := first
    exact ⟨missing, before, after, split, earlier⟩

theorem exists_error_iff :
    (∃ e, p.substitute b = .error e) ↔ ∃ name ∈ p.holes, b.get? name = none := by
  constructor
  · intro failed
    obtain ⟨⟨name⟩, failed⟩ := failed
    obtain ⟨before, after, split, -, unbound⟩ :=
      find?_unbound_eq_some_iff.1 (substitute_eq_error_iff.1 failed)
    exact ⟨name, by simp [split], unbound⟩
  · intro unbound
    obtain ⟨name, hole, unbound⟩ := unbound
    cases outcome : p.substitute b with
    | error e => exact ⟨e, rfl⟩
    | ok t =>
      have bound := exists_substitute_iff.1 ⟨t, outcome⟩ name hole
      rw [Bindings.contains_eq, unbound] at bound
      contradiction

/-- Filling fails exactly when the name of a hole is not bound, and then reports the first such name
in the order of the holes. Their names are those at the hole nodes of the pattern, each once. -/
theorem substitute_eq_error_iff_first_unbound (p : Pattern) (b : Bindings) :
    ((∃ e, p.substitute b = .error e) ↔ ∃ name ∈ p.holes, b.get? name = none) ∧
    (∀ e, p.substitute b = .error e ↔ ∃ before after, p.holes = before ++ e.name :: after ∧
      (∀ other ∈ before, b.get? other ≠ none) ∧ b.get? e.name = none) ∧
    p.holes.Nodup ∧ ∀ name, name ∈ p.holes ↔ (hole name).Part p := by
  refine ⟨exists_error_iff, fun e => ?_, nodup_holes p, fun name => ?_⟩
  · rw [substitute_eq_error_iff, find?_unbound_eq_some_iff]
  · rw [mem_holes, hole_part_iff]

/-- The holes `y` and `z` are not bound; `y` occurs first, inside a list. -/
example :
    (list [.hole "x", .list [.literal (.symbol "z"), .hole "y"], .hole "z", .hole "y"]).substitute
      (.ofList [("x", .number 1)]) = .error ⟨"y"⟩ := by
  rfl

end Pattern

end Sexp
