import Mathlib.Data.List.Basic
import Sexp.Proofs.Examples.Image
import Sexp.Proofs.Matching.Fresh

/-!
# Patterns of one example

An example gives one pattern for each choice of holes, and a literal stands for the pattern of its
tree without holes. Written out like that, it compares the tree place by place and may report
another failure; all else is the same (`expand_interchangeable`). Where a symbol was compared and is
now a hole, every tree that matched has that symbol at all its places, so the hole is bound to it:
listing more names loses no match (`solve_ofExample_widened`).
-/

namespace Sexp

/-! ## Literals written out -/

namespace Match

variable {m n : Match} {next after : Bindings → Match}

/-- Two matches that both succeed or both fail, for whatever reason, and leave the same
bindings. -/
structure SameEffect (m n : Match) : Prop where
  passes : m.result = .ok () ↔ n.result = .ok ()
  bindings : m.bindings = n.bindings

theorem SameEffect.andThen (first : m.SameEffect n)
    (later : ∀ b, (next b).SameEffect (after b)) :
    (m.andThen next).SameEffect (n.andThen after) := by
  cases passed : m.result with
  | ok =>
    rw [andThen_of_ok passed, andThen_of_ok (first.passes.1 passed), first.bindings]
    exact ⟨(later n.bindings).passes, (later n.bindings).bindings⟩
  | error reason =>
    -- The second fails too, perhaps for another reason, so that neither goes on.
    cases outcome : n.result with
    | ok => cases passed.symm.trans (first.passes.2 outcome)
    | error other =>
      rw [andThen_of_error passed, andThen_of_error outcome]
      exact first

end Match

namespace Pattern

variable {p : Pattern} {t : Tree} {b : Bindings}

mutual

/-- The pattern with each literal taken for an example without holes. -/
def expand : Pattern → Pattern
  | .literal tree => ofExample [] tree
  | .hole name => .hole name
  | .list ps => .list (expandAll ps)

def expandAll : List Pattern → List Pattern
  | [] => []
  | p :: ps => expand p :: expandAll ps

end

@[simp] theorem expandAll_eq_map (ps : List Pattern) : expandAll ps = ps.map expand := by
  induction ps with
  | nil => rfl
  | cons p ps ih => simp [expandAll, ih]

theorem expand_list (ps : List Pattern) : (list ps).expand = .list (ps.map expand) := by
  simp [expand]

theorem occurrences_ofExample_nil (e : Tree) : (ofExample [] e).occurrences = [] := by
  apply List.eq_nil_iff_forall_not_mem.2
  intro name hole
  exact List.not_mem_nil (mem_occurrences_ofExample.1 hole).1

theorem occurrences_expand (p : Pattern) : p.expand.occurrences = p.occurrences := by
  induction p with
  | literal e => exact occurrences_ofExample_nil e
  | hole name => rfl
  | list ps each =>
    rw [expand_list, occurrences_list, occurrences_list, List.flatMap_map]
    exact List.flatMap_congr each

theorem toTree_expand (p : Pattern) : p.expand.toTree = p.toTree := by
  induction p with
  | literal e => exact toTree_ofExample [] e
  | hole name => rfl
  | list ps each =>
    rw [expand_list, toTree_list, toTree_list, List.map_map]
    congr 1
    exact List.map_congr_left each

theorem list_not_mem_literals_expand (p : Pattern) (ts : List Tree) :
    .list ts ∉ p.expand.literals := by
  induction p with
  | literal e => exact list_not_mem_literals_ofExample [] e ts
  | hole name => exact List.not_mem_nil
  | list ps each =>
    intro mem
    rw [expand_list, literals_list, List.flatMap_map, List.mem_flatMap] at mem
    obtain ⟨p, element, inside⟩ := mem
    exact each p element inside

theorem substitute_of_closed (closed : p.occurrences = []) (b : Bindings) :
    p.substitute b = .ok p.toTree := by
  apply substitute_eq_ok_toTree
  rw [closed]
  exact List.forall_mem_nil _

theorem substitute_expand (p : Pattern) (b : Bindings) : p.expand.substitute b = p.substitute b := by
  induction p with
  | literal e => rw [expand, substitute_of_closed (occurrences_ofExample_nil e), toTree_ofExample,
      substitute_literal]
  | hole name => rfl
  | list ps each =>
    rw [expand_list, substitute_list, substitute_list, substituteAll_map_congr each, List.map_id']

theorem bindings_matchInto_of_closed (closed : p.occurrences = []) (t : Tree) (b : Bindings) :
    (p.matchInto t b).bindings = b := by
  have grows := p.matchInto_grows t b
  symm
  apply Bindings.eq_of_le grows.keeps
  intro name bound
  rcases grows.names name bound with earlier | hole
  · exact earlier
  · rw [closed] at hole
    contradiction

/-- A pattern without holes matches the tree that it shows and no other. -/
theorem matchInto_eq_ok_iff_of_closed (closed : p.occurrences = []) :
    (p.matchInto t b).result = .ok () ↔ p.toTree = t := by
  have within : (p.matchInto t b).Within b ↔ p.substitute b = .ok t :=
    matchInto_within_iff p t (le_refl b)
  rw [substitute_of_closed closed, Except.ok.injEq, Match.Within,
    bindings_matchInto_of_closed closed] at within
  rw [← within, and_iff_left (le_refl b)]

theorem matchInto_ofExample_nil (u t : Tree) (b : Bindings) :
    ((ofExample [] u).matchInto t b).SameEffect ((literal u).matchInto t b) := by
  have closed := occurrences_ofExample_nil u
  constructor
  · rw [matchInto_eq_ok_iff_of_closed closed, matchInto_eq_ok_iff_of_closed rfl, toTree_ofExample,
      toTree]
  · rw [bindings_matchInto_of_closed closed, bindings_matchInto_of_closed rfl]

theorem matchAllInto_expand {ps : List Pattern}
    (each : ∀ p ∈ ps, ∀ t b, (p.expand.matchInto t b).SameEffect (p.matchInto t b))
    (ts : List Tree) (b : Bindings) :
    (matchAllInto (ps.map expand) ts b).SameEffect (matchAllInto ps ts b) := by
  induction ps generalizing ts b with
  | nil => exact ⟨Iff.rfl, rfl⟩
  | cons p ps ih =>
    cases ts with
    | nil => exact ⟨Iff.rfl, rfl⟩
    | cons t ts =>
      have first := each p List.mem_cons_self t b
      have later := ih (fun q mem => each q (List.mem_cons_of_mem p mem)) ts
      rw [List.map_cons, matchAllInto, matchAllInto]
      exact first.andThen later

theorem matchInto_expand (p : Pattern) (t : Tree) (b : Bindings) :
    (p.expand.matchInto t b).SameEffect (p.matchInto t b) := by
  induction p generalizing t b with
  | literal e => exact matchInto_ofExample_nil e t b
  | hole name => exact ⟨Iff.rfl, rfl⟩
  | list ps each =>
    rw [expand_list]
    cases t with
    | invalid | symbol | number => exact ⟨Iff.rfl, rfl⟩
    | list ts =>
      rw [matchInto_list_list, matchInto_list_list, List.length_map]
      split
      · exact matchAllInto_expand each ts b
      · exact ⟨Iff.rfl, rfl⟩

/-- A pattern and its expansion are interchangeable. Against any tree and from any bindings they
both match or both fail, and leave the same bindings either way; they are filled to the same, and
have the same holes and the same text. No literal of the expansion holds a list. An example without
holes matches itself only, and binds nothing. -/
theorem expand_interchangeable (p : Pattern) :
    (∀ t b₀, ((p.expand.matchInto t b₀).result = .ok () ↔ (p.matchInto t b₀).result = .ok ()) ∧
      (p.expand.matchInto t b₀).bindings = (p.matchInto t b₀).bindings) ∧
    (∀ b, p.expand.substitute b = p.substitute b) ∧
    p.expand.holes = p.holes ∧ p.expand.text = p.text ∧ (∀ ts, .list ts ∉ p.expand.literals) ∧
    ∀ u t b₀, (((ofExample [] u).matchInto t b₀).result = .ok () ↔ t = u) ∧
      ((ofExample [] u).matchInto t b₀).bindings = b₀ := by
  have holes : p.expand.holes = p.holes := by rw [Pattern.holes, occurrences_expand, Pattern.holes]
  have text : p.expand.text = p.text := by rw [← text_toTree, toTree_expand, text_toTree]
  refine ⟨fun t b₀ => ?_, substitute_expand p, holes, text, list_not_mem_literals_expand p, ?_⟩
  · have same := matchInto_expand p t b₀
    exact ⟨same.passes, same.bindings⟩
  · intro u t b₀
    have closed := occurrences_ofExample_nil u
    refine ⟨?_, bindings_matchInto_of_closed closed t b₀⟩
    rw [matchInto_eq_ok_iff_of_closed closed, toTree_ofExample]
    exact eq_comm

/-- The failures differ: the literal as a whole, or its second element. The hole before it is bound
either way. -/
example :
    let p : Pattern := .list [.hole "x", .literal (.list [.symbol "a", .invalid])]
    let t : Tree := .list [.number 1, .list [.symbol "a", .number 2]]
    (p.matchInto t ∅).result =
        .error (.differs (.list [.symbol "a", .invalid]) (.list [.symbol "a", .number 2])) ∧
      (p.expand.matchInto t ∅).result = .error (.differs .invalid (.number 2)) ∧
      (p.expand.matchInto t ∅).bindings = (p.matchInto t ∅).bindings := by
  exact ⟨rfl, rfl, rfl⟩

end Pattern

/-! ## More names for holes -/

namespace Bindings

theorem get?_merge_ownSymbols (b : Bindings) (names : List String) (name : String) :
    (b.merge (ownSymbols names)).get? name =
      if name ∈ names then some (.symbol name) else b.get? name := by
  rw [get?_merge, get?_ownSymbols]
  split <;> simp

theorem contains_merge_ownSymbols {b : Bindings} {names : List String} {name : String} :
    (b.merge (ownSymbols names)).contains name ↔ name ∈ names ∨ b.contains name := by
  rw [contains_eq, get?_merge_ownSymbols, contains_eq]
  by_cases listed : name ∈ names <;> simp [listed]

end Bindings

namespace Pattern

variable {holes more : List String} {b c : Bindings} {e t : Tree} {name : String}

theorem substitute_ofExample_widened
    (old : ∀ name ∈ e.names, name ∈ holes → name ∈ more ∧ c.get? name = b.get? name)
    (new : ∀ name ∈ e.names, name ∉ holes → name ∈ more → c.get? name = some (.symbol name)) :
    (ofExample more e).substitute c = (ofExample holes e).substitute b := by
  induction e with
  | invalid | number => rfl
  | symbol name =>
    have self : name ∈ (Tree.symbol name).names := List.mem_singleton_self name
    by_cases listed : name ∈ holes
    · obtain ⟨still, same⟩ := old name self listed
      rw [ofExample_symbol_of_mem listed, ofExample_symbol_of_mem still, substitute_hole,
        substitute_hole, same]
    · -- What was a literal symbol stays one, or is a hole that is filled with that symbol.
      rw [ofExample_symbol_of_not_mem listed, substitute_literal]
      by_cases added : name ∈ more
      · rw [ofExample_symbol_of_mem added, substitute_hole_eq_ok]
        exact new name self listed added
      · rw [ofExample_symbol_of_not_mem added, substitute_literal]
  | list es each =>
    rw [ofExample_list, ofExample_list, substitute_list, substitute_list]
    congr 1
    apply substituteAll_map_congr
    intro e mem
    exact each e mem (fun name inside => old name (Tree.mem_names_list mem inside))
      (fun name inside => new name (Tree.mem_names_list mem inside))

theorem solve_toTree (p : Pattern) : p.solve p.toTree = .ok (.ownSymbols p.holes) :=
  solve_eq_ok_iff_substitute.2 ⟨substitute_ownSymbols p, fun _ => Bindings.contains_ownSymbols⟩

/-- Listing more names loses no match. What was found is found again, and with it each symbol of the
example that only the longer list has, bound to itself. An example, in particular, matches its own
pattern, with every hole bound to the symbol of its name. -/
theorem solve_ofExample_widened {holes more : List String} (subset : holes ⊆ more) (e t : Tree) :
    (∀ b, (ofExample holes e).solve t = .ok b →
      (ofExample more e).solve t =
        .ok (b.merge (.ownSymbols (e.names.filter fun name => name ∈ more ∧ name ∉ holes)))) ∧
    (ofExample more e).solve e = .ok (.ownSymbols (ofExample more e).holes) := by
  constructor
  · intro b solved
    obtain ⟨filled, bound⟩ := solve_eq_ok_iff_substitute.1 solved
    apply solve_eq_ok_iff_substitute.2
    constructor
    · rw [← filled]
      apply substitute_ofExample_widened
      · intro name inside listed
        refine ⟨subset listed, ?_⟩
        rw [Bindings.get?_merge_ownSymbols, if_neg]
        simp [listed]
      · intro name inside listed added
        rw [Bindings.get?_merge_ownSymbols, if_pos]
        simp [inside, listed, added]
    · intro name
      rw [Bindings.contains_merge_ownSymbols, bound, mem_holes, mem_holes, mem_occurrences_ofExample,
        mem_occurrences_ofExample, List.mem_filter, decide_eq_true_iff]
      by_cases listed : name ∈ holes
      · simp [listed, subset listed]
      · simp [listed, and_comm]
  · have matched := solve_toTree (ofExample more e)
    rwa [toTree_ofExample] at matched

/-- The symbol `y` stands at two places and becomes a hole; `w` is listed and does not occur. -/
theorem solve_ofExample_widened_repeated :
    let e : Tree := .list [.symbol "f", .symbol "x", .list [.symbol "y", .symbol "x"], .symbol "y"]
    let t : Tree := .list [.symbol "f", .number 1, .list [.symbol "y", .number 1], .symbol "y"]
    ["x"] ⊆ ["y", "w", "x"] ∧
      (ofExample ["x"] e).solve t = .ok (.ofList [("x", .number 1)]) ∧
      (ofExample ["y", "w", "x"] e).solve t = .ok (.ofList [("x", .number 1), ("y", .symbol "y")]) ∧
      (ofExample ["y", "w", "x"] e).solve e =
        .ok (.ofList [("x", .symbol "x"), ("y", .symbol "y")]) := by
  intro e t
  have subset : ["x"] ⊆ ["y", "w", "x"] := by decide
  have solved : (ofExample ["x"] e).solve t = .ok (.ofList [("x", .number 1)]) := rfl
  obtain ⟨widened, own⟩ := solve_ofExample_widened subset e t
  exact ⟨subset, solved, widened _ solved, own⟩

end Pattern

end Sexp
