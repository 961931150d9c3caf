import Sexp.Pattern.Substitution

/-!
# What examples give

A pattern is printed as a tree in which each hole is the symbol of its name (`text_toTree`), and
filled with those symbols it is that tree. For the pattern of an example it is the example again, so
an example is known from its pattern, and of the names that were listed those that it has for
symbols. The patterns that examples give are exactly those without a literal that holds a list or
that is a symbol named for a hole.
-/

namespace Sexp

namespace Pattern

mutual

/-- The pattern with each hole for the symbol of its name. -/
def toTree : Pattern → Tree
  | .literal tree => tree
  | .hole name => .symbol name
  | .list ps => .list (toTrees ps)

def toTrees : List Pattern → List Tree
  | [] => []
  | p :: ps => toTree p :: toTrees ps

end

mutual

/-- The tree at every literal, from left to right. -/
def literals : Pattern → List Tree
  | .literal tree => [tree]
  | .hole _ => []
  | .list ps => literalsAll ps

def literalsAll : List Pattern → List Tree
  | [] => []
  | p :: ps => literals p ++ literalsAll ps

end

@[simp] theorem toTrees_eq_map (ps : List Pattern) : toTrees ps = ps.map toTree := by
  induction ps with
  | nil => rfl
  | cons p ps ih => simp [toTrees, ih]

@[simp] theorem literalsAll_eq_flatMap (ps : List Pattern) :
    literalsAll ps = ps.flatMap literals := by
  induction ps with
  | nil => rfl
  | cons p ps ih => simp [literalsAll, ih]

theorem toTree_list (ps : List Pattern) : (list ps).toTree = .list (ps.map toTree) := by
  simp [toTree]

theorem literals_list (ps : List Pattern) : (list ps).literals = ps.flatMap literals := by
  simp [literals]

theorem mem_literals_ofExample_list {names : List String} {ts : List Tree} {u : Tree} :
    u ∈ (ofExample names (.list ts)).literals ↔ ∃ t ∈ ts, u ∈ (ofExample names t).literals := by
  rw [ofExample_list, literals_list, List.flatMap_map, List.mem_flatMap]

variable {p : Pattern} {ps : List Pattern} {names : List String} {name : String} {e t : Tree}

theorem mem_literals_list (mem : p ∈ ps) (inside : t ∈ p.literals) : t ∈ (list ps).literals := by
  rw [literals_list]
  exact List.mem_flatMap.2 ⟨p, mem, inside⟩

theorem piecesAfter_toTree (each : ∀ p ∈ ps, p.toTree.pieces = p.pieces) :
    Tree.piecesAfter (ps.map toTree) = piecesAfter ps := by
  induction ps with
  | nil => rfl
  | cons p ps ih =>
    have first := each p List.mem_cons_self
    have later := ih fun q mem => each q (List.mem_cons_of_mem p mem)
    rw [List.map_cons, Tree.piecesAfter, piecesAfter, first, later]

theorem pieces_toTree (p : Pattern) : p.toTree.pieces = p.pieces := by
  induction p with
  | literal tree => rw [toTree, pieces]
  | hole name => rw [toTree, Tree.pieces, pieces]
  | list ps each =>
    rw [toTree_list]
    cases ps with
    | nil => rfl
    | cons p ps =>
      have first := each p List.mem_cons_self
      have later := piecesAfter_toTree fun q mem => each q (List.mem_cons_of_mem p mem)
      rw [List.map_cons, Tree.pieces, pieces, first, later]

theorem text_toTree (p : Pattern) : p.toTree.text = p.text := by
  rw [Tree.text, text, pieces_toTree]

theorem ofExample_toTree (lists : ∀ ts, .list ts ∉ p.literals)
    (holes : ∀ name ∈ p.occurrences, name ∈ names)
    (symbols : ∀ name, .symbol name ∈ p.literals → name ∉ names) :
    ofExample names p.toTree = p := by
  induction p with
  | literal tree =>
    rw [toTree]
    cases tree with
    | invalid | number => rfl
    | symbol name => exact ofExample_symbol_of_not_mem (symbols name (List.mem_singleton_self _))
    | list ts => exact absurd (List.mem_singleton_self _) (lists ts)
  | hole name => exact ofExample_symbol_of_mem (holes name (List.mem_singleton_self _))
  | list ps each =>
    have same : ∀ p ∈ ps, ofExample names p.toTree = p := fun p mem =>
      each p mem (fun ts inside => lists ts (mem_literals_list mem inside))
        (fun name inside => holes name (mem_occurrences_list mem inside))
        (fun name inside => symbols name (mem_literals_list mem inside))
    rw [toTree_list, ofExample_list, List.map_map]
    congr 1
    exact (List.map_congr_left same).trans (List.map_id ps)

theorem symbol_mem_literals_ofExample (mem : .symbol name ∈ (ofExample names e).literals) :
    name ∉ names := by
  induction e with
  | invalid | number => simp [ofExample, literals] at mem
  | symbol other =>
    by_cases listed : other ∈ names
    · rw [ofExample_symbol_of_mem listed] at mem
      contradiction
    · rw [ofExample_symbol_of_not_mem listed] at mem
      obtain rfl : name = other := by simpa [literals] using mem
      exact listed
  | list ts each =>
    obtain ⟨t, element, inside⟩ := mem_literals_ofExample_list.1 mem
    exact each t element inside

theorem list_not_mem_literals_ofExample (names : List String) (e : Tree) (ts : List Tree) :
    .list ts ∉ (ofExample names e).literals := by
  induction e with
  | invalid | number => simp [ofExample, literals]
  | symbol name =>
    by_cases listed : name ∈ names
    · simp [ofExample_symbol_of_mem listed, literals]
    · simp [ofExample_symbol_of_not_mem listed, literals]
  | list es each =>
    intro mem
    obtain ⟨e, element, inside⟩ := mem_literals_ofExample_list.1 mem
    exact each e element inside

/-- The holes of an example are the listed names among those of its symbols. -/
theorem mem_occurrences_ofExample :
    name ∈ (ofExample names e).occurrences ↔ name ∈ names ∧ name ∈ e.names := by
  induction e with
  | invalid | number => simp [ofExample, occurrences, Tree.names]
  | symbol other =>
    by_cases listed : other ∈ names
    · rw [ofExample_symbol_of_mem listed, occurrences, Tree.names, List.mem_singleton]
      exact ⟨fun same => ⟨same ▸ listed, same⟩, And.right⟩
    · rw [ofExample_symbol_of_not_mem listed, occurrences, Tree.names, List.mem_singleton]
      exact iff_of_false List.not_mem_nil fun both => listed (both.2 ▸ both.1)
  | list es each =>
    rw [mem_occurrences_ofExample_list, Tree.names_list, List.mem_flatMap]
    constructor
    · intro hole
      obtain ⟨e, element, inside⟩ := hole
      obtain ⟨listed, occurs⟩ := (each e element).1 inside
      exact ⟨listed, e, element, occurs⟩
    · intro hole
      obtain ⟨listed, e, element, occurs⟩ := hole
      exact ⟨e, element, (each e element).2 ⟨listed, occurs⟩⟩

theorem toTree_ofExample (names : List String) (e : Tree) : (ofExample names e).toTree = e := by
  induction e with
  | invalid | number => rfl
  | symbol name =>
    by_cases listed : name ∈ names
    · rw [ofExample_symbol_of_mem listed, toTree]
    · rw [ofExample_symbol_of_not_mem listed, toTree]
  | list es each =>
    rw [ofExample_list, toTree_list, List.map_map]
    congr 1
    exact (List.map_congr_left each).trans (List.map_id es)

end Pattern

/-! ## Filled with the symbols of its names -/

namespace Bindings

/-- Each of the names, bound to the symbol of that name. -/
def ownSymbols (names : List String) : Bindings :=
  .ofList (names.map fun name => (name, .symbol name))

theorem get?_ownSymbols (names : List String) (name : String) :
    (ownSymbols names).get? name = if name ∈ names then some (.symbol name) else none := by
  have pairs : names.map (fun name => (name, Tree.symbol name)) =
      names.filterMap fun name => (some (Tree.symbol name)).map (name, ·) :=
    (congrFun List.filterMap_eq_map names).symm
  rw [ownSymbols, pairs, get?_ofList_filterMap fun name => some (.symbol name)]

theorem contains_ownSymbols {names : List String} {name : String} :
    (ownSymbols names).contains name ↔ name ∈ names := by
  rw [contains_eq, get?_ownSymbols]
  by_cases listed : name ∈ names <;> simp [listed]

end Bindings

namespace Pattern

/-- No literal holds a list, and no literal symbol is named for a hole. -/
structure Exemplary (p : Pattern) : Prop where
  lists : ∀ ts, .list ts ∉ p.literals
  apart : ∀ name ∈ p.holes, .symbol name ∉ p.literals

variable {p : Pattern} {names more : List String} {b : Bindings} {e u : Tree}

theorem substituteAll_toTree {ps : List Pattern}
    (each : ∀ p ∈ ps, p.substitute b = .ok p.toTree) :
    substituteAll ps b = .ok (ps.map toTree) := by
  induction ps with
  | nil => rfl
  | cons p ps ih =>
    have first := each p List.mem_cons_self
    have later := ih fun q mem => each q (List.mem_cons_of_mem p mem)
    exact substituteAll_cons_eq_ok.2 ⟨p.toTree, ps.map toTree, rfl, first, later⟩

/-- Where each hole is bound to the symbol of its name, filling gives the tree that is shown. -/
theorem substitute_eq_ok_toTree
    (own : ∀ name ∈ p.occurrences, b.get? name = some (.symbol name)) :
    p.substitute b = .ok p.toTree := by
  induction p with
  | literal tree => rfl
  | hole name => exact substitute_hole_eq_ok.2 (own name (List.mem_singleton_self name))
  | list ps each =>
    rw [toTree_list]
    refine substitute_list_eq_ok.2 ⟨ps.map toTree, rfl, substituteAll_toTree ?_⟩
    intro p mem
    exact each p mem fun name hole => own name (mem_occurrences_list mem hole)

theorem substitute_ownSymbols (p : Pattern) :
    p.substitute (.ownSymbols p.holes) = .ok p.toTree := by
  apply substitute_eq_ok_toTree
  intro name hole
  rw [Bindings.get?_ownSymbols, if_pos (mem_holes.2 hole)]

theorem exemplary_ofExample (names : List String) (e : Tree) :
    (ofExample names e).Exemplary := by
  constructor
  · exact list_not_mem_literals_ofExample names e
  · intro name hole mem
    have listed := (mem_occurrences_ofExample.1 (mem_holes.1 hole)).1
    exact symbol_mem_literals_ofExample mem listed

theorem Exemplary.ofExample_toTree (exemplary : p.Exemplary) :
    ofExample p.holes p.toTree = p := by
  apply Pattern.ofExample_toTree exemplary.lists
  · intro name hole
    exact mem_holes.2 hole
  · intro name mem hole
    exact exemplary.apart name hole mem

theorem ofExample_toTree_iff : ofExample p.holes p.toTree = p ↔ p.Exemplary :=
  ⟨fun same => same ▸ exemplary_ofExample p.holes p.toTree, Exemplary.ofExample_toTree⟩

theorem ofExample_congr (same : ∀ name ∈ e.names, name ∈ names ↔ name ∈ more) :
    ofExample names e = ofExample more e := by
  induction e with
  | invalid | number => rfl
  | symbol name => simp only [ofExample, same name (List.mem_singleton_self name)]
  | list es each =>
    rw [ofExample_list, ofExample_list]
    congr 1
    apply List.map_congr_left
    intro e mem
    exact each e mem fun name inside => same name (Tree.mem_names_list mem inside)

theorem ofExample_eq_iff :
    ofExample names e = ofExample more u ↔
      e = u ∧ ∀ name ∈ e.names, name ∈ names ↔ name ∈ more := by
  constructor
  · intro same
    -- The tree that the pattern shows gives the example, its holes give the names.
    have shown := congrArg toTree same
    rw [toTree_ofExample, toTree_ofExample] at shown
    subst shown
    refine ⟨rfl, fun name inside => ?_⟩
    have holes : name ∈ (ofExample names e).occurrences ↔ name ∈ (ofExample more e).occurrences := by
      rw [same]
    simpa only [mem_occurrences_ofExample, inside, and_true] using holes
  · intro both
    obtain ⟨rfl, same⟩ := both
    exact ofExample_congr same

/-- Filled with the symbols of its own names, a pattern is a tree that is printed like it; the
pattern of an example is that example again. Taken for an example with the holes of the pattern, the
tree gives the pattern back exactly if no literal holds a list and no literal symbol is named for a
hole, and no other patterns are given by any example. So two examples give one pattern exactly if
they are equal and the same of their symbols are listed. -/
theorem ofExample_image :
    (∀ p : Pattern, ∃ t, p.substitute (.ownSymbols p.holes) = .ok t ∧ t.text = p.text ∧
      (ofExample p.holes t = p ↔ p.Exemplary) ∧
      (p.Exemplary ↔ ∃ names e, ofExample names e = p)) ∧
    (∀ names e, (ofExample names e).substitute (.ownSymbols (ofExample names e).holes) = .ok e) ∧
    ∀ names more e u, ofExample names e = ofExample more u ↔
      e = u ∧ ∀ name ∈ e.names, name ∈ names ↔ name ∈ more := by
  refine ⟨fun p => ?_, fun names e => ?_, fun names more e u => ofExample_eq_iff⟩
  · refine ⟨p.toTree, substitute_ownSymbols p, text_toTree p, ofExample_toTree_iff, ?_⟩
    constructor
    · intro exemplary
      exact ⟨p.holes, p.toTree, exemplary.ofExample_toTree⟩
    · intro given
      obtain ⟨names, e, rfl⟩ := given
      exact exemplary_ofExample names e
  · rw [substitute_ownSymbols, toTree_ofExample]

/-- No example gives a literal `x` beside a hole `x`, or a literal that holds a list. -/
example :
    let p : Pattern := .list [.hole "x", .literal (.symbol "x"), .literal (.list [])]
    ofExample p.holes p.toTree = .list [.hole "x", .hole "x", .list []] := by
  decide

end Pattern

end Sexp
