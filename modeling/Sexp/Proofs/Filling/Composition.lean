import Sexp.Proofs.Filling.Holes

/-!
# Filling twice

What an example is filled to may be taken for an example itself, with the same names for holes; the
trees that were put in are then searched for holes again. Filling that one comes to the same as
filling the first example once, with what becomes of the trees that were put in.
-/

namespace Sexp

open Pattern

/-- What becomes of the tree at a name, taken for an example and filled with `c`. -/
def Bindings.refilled? (holes : List String) (b c : Bindings) (name : String) : Option Tree :=
  (b.get? name).bind fun tree => ((ofExample holes tree).substitute c).toOption

/-- The listed names, each bound to what becomes of its tree in `b`. -/
def Bindings.compose (holes names : List String) (b c : Bindings) : Bindings :=
  .ofList (names.filterMap fun name => (refilled? holes b c name).map (name, ·))

variable {holes : List String} {b c d : Bindings} {name : String} {e s t u : Tree}

namespace Bindings

theorem refilled?_eq_some_iff :
    refilled? holes b c name = some u ↔
      ∃ s, b.get? name = some s ∧ (ofExample holes s).substitute c = .ok u := by
  rw [refilled?, Option.bind_eq_some_iff]
  refine exists_congr fun s => and_congr_right fun _ => ?_
  cases (ofExample holes s).substitute c <;> simp [Except.toOption]

theorem get?_compose {names : List String} (mem : name ∈ names) :
    (compose holes names b c).get? name = refilled? holes b c name := by
  rw [compose, get?_ofList_filterMap, if_pos mem]

end Bindings

namespace Pattern

theorem substituteAll_ofExample {es us : List Tree}
    (each : ∀ e ∈ es, ∀ t, (ofExample holes e).substitute b = .ok t →
      (ofExample holes t).substitute c = (ofExample holes e).substitute d)
    (filled : substituteAll (es.map (ofExample holes)) b = .ok us) :
    substituteAll (us.map (ofExample holes)) c = substituteAll (es.map (ofExample holes)) d := by
  induction es generalizing us with
  | nil =>
    cases filled
    rfl
  | cons e es ih =>
    obtain ⟨t, later, rfl, first, rest⟩ := substituteAll_cons_eq_ok.1 filled
    have one := each e List.mem_cons_self t first
    have others := ih (fun e mem => each e (List.mem_cons_of_mem _ mem)) rest
    rw [List.map_cons, List.map_cons, substituteAll_cons, substituteAll_cons, one, others]

/-- Where each tree that was put in becomes what `d` binds its hole to, the whole becomes what the
example does with `d`. -/
theorem substitute_ofExample_of_filled (filled : (ofExample holes e).substitute b = .ok t)
    (each : ∀ name ∈ (ofExample holes e).occurrences, ∀ s, b.get? name = some s →
      (ofExample holes s).substitute c = (hole name).substitute d) :
    (ofExample holes t).substitute c = (ofExample holes e).substitute d := by
  induction e generalizing t with
  | invalid | number =>
    cases filled
    rfl
  | symbol name =>
    by_cases listed : name ∈ holes
    · rw [ofExample_symbol_of_mem listed] at filled each ⊢
      have bound : b.get? name = some t := substitute_hole_eq_ok.1 filled
      exact each name (List.mem_singleton_self name) t bound
    · rw [ofExample_symbol_of_not_mem listed] at filled ⊢
      cases filled
      rw [ofExample_symbol_of_not_mem listed, substitute_literal, substitute_literal]
  | list es ih =>
    rw [ofExample_list] at filled
    obtain ⟨us, rfl, elements⟩ := substitute_list_eq_ok.1 filled
    rw [ofExample_list, ofExample_list, substitute_list, substitute_list]
    congr 1
    refine substituteAll_ofExample (fun e mem t found => ih e mem found ?_) elements
    intro name hole
    exact each name (mem_occurrences_ofExample_list.2 ⟨e, mem, hole⟩)

theorem mem_occurrences_of_filled (filled : (ofExample holes e).substitute b = .ok t)
    {outer : String} (hole : outer ∈ (ofExample holes e).occurrences)
    (bound : b.get? outer = some s) (inner : name ∈ (ofExample holes s).occurrences) :
    name ∈ (ofExample holes t).occurrences := by
  induction e generalizing t with
  | invalid | number => simp [ofExample, occurrences] at hole
  | symbol other =>
    by_cases listed : other ∈ holes
    · rw [ofExample_symbol_of_mem listed] at filled hole
      obtain rfl : outer = other := List.mem_singleton.1 hole
      obtain rfl : s = t := Option.some.inj (bound.symm.trans (substitute_hole_eq_ok.1 filled))
      exact inner
    · rw [ofExample_symbol_of_not_mem listed] at hole
      contradiction
  | list es ih =>
    rw [ofExample_list] at filled
    obtain ⟨us, rfl, elements⟩ := substitute_list_eq_ok.1 filled
    obtain ⟨e, element, hole⟩ := mem_occurrences_ofExample_list.1 hole
    obtain ⟨u, inside, found⟩ := exists_mem_of_substituteAll elements (List.mem_map_of_mem element)
    exact mem_occurrences_ofExample_list.2 ⟨u, inside, ih e element found hole⟩

theorem exists_refilled_of_filled (filled : (ofExample holes e).substitute b = .ok t)
    (whole : (ofExample holes t).substitute c = .ok u) (hole : name ∈ (ofExample holes e).holes) :
    ∃ v, b.refilled? holes c name = some v := by
  have bound : b.contains name := exists_substitute_iff.1 ⟨t, filled⟩ name hole
  rw [Bindings.contains_eq, Option.isSome_iff_exists] at bound
  obtain ⟨s, bound⟩ := bound
  obtain ⟨v, found⟩ : ∃ v, (ofExample holes s).substitute c = .ok v := by
    -- Filling needs the holes only, and those of the part are holes of the whole.
    apply exists_substitute_iff.2
    intro inner mem
    apply exists_substitute_iff.1 ⟨u, whole⟩
    exact mem_holes.2 (mem_occurrences_of_filled filled (mem_holes.1 hole) bound (mem_holes.1 mem))
  exact ⟨v, Bindings.refilled?_eq_some_iff.2 ⟨s, bound, found⟩⟩

theorem substitute_compose (filled : (ofExample holes e).substitute b = .ok t)
    (each : ∀ name ∈ (ofExample holes e).holes, ∃ u, b.refilled? holes c name = some u) :
    (ofExample holes t).substitute c =
      (ofExample holes e).substitute (b.compose holes (ofExample holes e).holes c) := by
  apply substitute_ofExample_of_filled filled
  intro name hole s bound
  have mem : name ∈ (ofExample holes e).holes := mem_holes.2 hole
  obtain ⟨u, refilled⟩ := each name mem
  obtain ⟨s', bound', found⟩ := Bindings.refilled?_eq_some_iff.1 refilled
  obtain rfl : s = s' := Option.some.inj (bound.symm.trans bound')
  rw [found]
  symm
  rw [substitute_hole_eq_ok, Bindings.get?_compose mem, refilled]

theorem exists_substitute_compose
    (each : ∀ name ∈ (ofExample holes e).holes, ∃ u, b.refilled? holes c name = some u) :
    ∃ u, (ofExample holes e).substitute (b.compose holes (ofExample holes e).holes c) = .ok u := by
  apply exists_substitute_iff.2
  intro name mem
  obtain ⟨u, refilled⟩ := each name mem
  rw [Bindings.contains_eq, Bindings.get?_compose mem, refilled]
  rfl

/-- Filling twice is filling once with the composed bindings. It gives a tree exactly when every
tree that was put in becomes one; these may bring the same names in again. -/
theorem substitute_twice (filled : (ofExample holes e).substitute b = .ok t) (c : Bindings) :
    ((∃ u, (ofExample holes t).substitute c = .ok u) ↔
      ∀ name ∈ (ofExample holes e).holes,
        ∃ u s, b.get? name = some s ∧ (ofExample holes s).substitute c = .ok u) ∧
    ((∃ u, (ofExample holes t).substitute c = .ok u) →
      (ofExample holes t).substitute c =
        (ofExample holes e).substitute (b.compose holes (ofExample holes e).holes c)) := by
  have parts : (∃ u, (ofExample holes t).substitute c = .ok u) →
      ∀ name ∈ (ofExample holes e).holes, ∃ u, b.refilled? holes c name = some u :=
    fun ⟨u, whole⟩ name hole => exists_refilled_of_filled filled whole hole
  simp only [← Bindings.refilled?_eq_some_iff]
  refine ⟨⟨parts, fun each => ?_⟩, fun whole => substitute_compose filled (parts whole)⟩
  rw [substitute_compose filled each]
  exact exists_substitute_compose each

/-- The name `y` is put in for `x` and is a hole again the second time, with another tree. -/
theorem substitute_twice_renamed :
    let e : Tree := .list [.symbol "+", .symbol "x", .list [.symbol "y", .symbol "x"]]
    let b : Bindings := .ofList [("x", .list [.symbol "y"]), ("y", .symbol "x")]
    let c : Bindings := .ofList [("x", .invalid), ("y", .number 1)]
    let t : Tree := .list [.symbol "+", .list [.symbol "y"], .list [.symbol "x", .list [.symbol "y"]]]
    let d : Bindings := b.compose ["y", "x"] (ofExample ["y", "x"] e).holes c
    (ofExample ["y", "x"] e).substitute b = .ok t ∧
      d = .ofList [("x", .list [.number 1]), ("y", .invalid)] ∧
      (ofExample ["y", "x"] t).substitute c = (ofExample ["y", "x"] e).substitute d := by
  intro e b c t d
  have filled : (ofExample ["y", "x"] e).substitute b = .ok t := rfl
  have composed : d = .ofList [("x", .list [.number 1]), ("y", .invalid)] := by decide
  exact ⟨filled, composed, (substitute_twice filled c).2 ⟨_, rfl⟩⟩

end Pattern

end Sexp
