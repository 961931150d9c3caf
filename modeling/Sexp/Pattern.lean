import Sexp.Tree

/-!
# Patterns

A pattern is a tree with named holes. A pattern made from an example turns the listed symbols into
holes, keeps lists as lists and takes all else literally. Patterns may also be written down that
no example gives, such as a literal that holds a list.

`occurrences` lists the holes from left to right with repetitions, `holes` without them.

A pattern is printed like the tree it was made from: each hole as its bare name. Nothing in the
text tells a hole from a symbol.
-/

namespace Sexp

inductive Pattern where
  | literal (tree : Tree)
  | hole (name : String)
  | list (elements : List Pattern)

namespace Pattern

instance : Inhabited Pattern := ⟨.literal .invalid⟩

mutual

/-- Decides equality of two patterns, left to right through their lists. -/
def decEq : (p q : Pattern) → Decidable (p = q)
  | .literal t, .literal u =>
    if h : t = u then isTrue (congrArg _ h) else isFalse fun e => h (literal.inj e)
  | .hole m, .hole n =>
    if h : m = n then isTrue (congrArg _ h) else isFalse fun e => h (hole.inj e)
  | .list ps, .list qs =>
    match decEqAll ps qs with
    | isTrue h => isTrue (congrArg _ h)
    | isFalse h => isFalse fun e => h (list.inj e)
  | .literal _, .hole _ | .literal _, .list _ | .hole _, .literal _ | .hole _, .list _
  | .list _, .literal _ | .list _, .hole _ => isFalse nofun

def decEqAll : (ps qs : List Pattern) → Decidable (ps = qs)
  | [], [] => isTrue rfl
  | [], _ :: _ | _ :: _, [] => isFalse nofun
  | p :: ps, q :: qs =>
    match decEq p q with
    | isFalse h => isFalse fun e => h (List.cons.inj e).1
    | isTrue h =>
      match decEqAll ps qs with
      | isFalse hs => isFalse fun e => hs (List.cons.inj e).2
      | isTrue hs => isTrue (h ▸ hs ▸ rfl)

end

instance : DecidableEq Pattern := decEq

/-- Induction over patterns, with the hypothesis at every element of a list. -/
@[induction_eliminator]
theorem induction {motive : Pattern → Prop} (literal : ∀ tree, motive (.literal tree))
    (hole : ∀ name, motive (.hole name))
    (list : ∀ elements, (∀ p ∈ elements, motive p) → motive (.list elements)) :
    ∀ p, motive p
  | .literal tree => literal tree
  | .hole name => hole name
  | .list elements => list elements fun p _ => induction literal hole list p

mutual

/-- The pattern that an example stands for, the listed symbols being its holes. -/
def ofExample (holes : List String) : Tree → Pattern
  | .invalid => .literal .invalid
  | .symbol name => if name ∈ holes then .hole name else .literal (.symbol name)
  | .number value => .literal (.number value)
  | .list ts => .list (ofExamples holes ts)

def ofExamples (holes : List String) : List Tree → List Pattern
  | [] => []
  | t :: ts => ofExample holes t :: ofExamples holes ts

end

mutual

/-- The name at every hole, from left to right. -/
def occurrences : Pattern → List String
  | .literal _ => []
  | .hole name => [name]
  | .list ps => occurrencesAll ps

def occurrencesAll : List Pattern → List String
  | [] => []
  | p :: ps => occurrences p ++ occurrencesAll ps

end

/-- The distinct names of the holes, in the order in which they first occur. -/
def holes (p : Pattern) : List String :=
  p.occurrences.eraseDups

@[simp] theorem ofExamples_eq_map (holes : List String) (ts : List Tree) :
    ofExamples holes ts = ts.map (ofExample holes) := by
  induction ts with
  | nil => rfl
  | cons t ts ih => simp [ofExamples, ih]

@[simp] theorem occurrencesAll_eq_flatMap (ps : List Pattern) :
    occurrencesAll ps = ps.flatMap occurrences := by
  induction ps with
  | nil => rfl
  | cons p ps ih => simp [occurrencesAll, ih]

theorem ofExample_symbol_of_mem {holes : List String} {name : String} (mem : name ∈ holes) :
    ofExample holes (.symbol name) = .hole name := by
  rw [ofExample, if_pos mem]

theorem ofExample_symbol_of_not_mem {holes : List String} {name : String} (other : name ∉ holes) :
    ofExample holes (.symbol name) = .literal (.symbol name) := by
  rw [ofExample, if_neg other]

theorem ofExample_list (holes : List String) (ts : List Tree) :
    ofExample holes (.list ts) = .list (ts.map (ofExample holes)) := by
  simp [ofExample]

theorem occurrences_list (ps : List Pattern) :
    (list ps).occurrences = ps.flatMap occurrences := by
  simp [occurrences]

theorem mem_occurrences_list {p : Pattern} {ps : List Pattern} {name : String} (mem : p ∈ ps)
    (inside : name ∈ p.occurrences) : name ∈ (list ps).occurrences := by
  rw [occurrences_list]
  exact List.mem_flatMap.2 ⟨p, mem, inside⟩

theorem mem_occurrences_ofExample_list {holes : List String} {ts : List Tree} {name : String} :
    name ∈ (ofExample holes (.list ts)).occurrences ↔
      ∃ t ∈ ts, name ∈ (ofExample holes t).occurrences := by
  rw [ofExample_list, occurrences_list, List.flatMap_map, List.mem_flatMap]

theorem mem_holes {p : Pattern} {name : String} : name ∈ p.holes ↔ name ∈ p.occurrences :=
  List.mem_eraseDups

/-- Induction along a list of names that drops each name from what comes after it, as `holes`
does. -/
theorem names_induction {motive : List String → Prop} (nil : motive [])
    (cons : ∀ name names, motive (names.filter fun other => !other == name) →
      motive (name :: names)) :
    ∀ names, motive names
  | [] => nil
  | name :: names => cons name names (names_induction nil cons _)
termination_by names => names.length
decreasing_by exact Nat.lt_succ_of_le (List.length_filter_le _ _)

theorem nodup_eraseDups (names : List String) : names.eraseDups.Nodup := by
  induction names using names_induction with
  | nil => exact List.nodup_nil
  | cons name names ih =>
    rw [List.eraseDups_cons, List.nodup_cons]
    refine ⟨fun again => ?_, ih⟩
    have other := (List.mem_filter.1 (List.mem_eraseDups.1 again)).2
    simp at other

theorem filter_eraseDups (q : String → Bool) (names : List String) :
    names.eraseDups.filter q = (names.filter q).eraseDups := by
  induction names using names_induction with
  | nil => rfl
  | cons name names ih =>
    rw [List.eraseDups_cons]
    cases kept : q name with
    | true =>
      rw [List.filter_cons_of_pos kept, List.filter_cons_of_pos kept, List.eraseDups_cons, ih]
      simp only [List.filter_filter, Bool.and_comm]
    | false =>
      have others : (names.filter fun other => !other == name).filter q = names.filter q := by
        rw [List.filter_filter]
        apply List.filter_congr
        intro other _
        by_cases same : other = name
        · simp [same, kept]
        · simp [same]
      have left : ¬q name = true := by simp [kept]
      rw [List.filter_cons_of_neg left, List.filter_cons_of_neg left, ih, others]

theorem nodup_holes (p : Pattern) : p.holes.Nodup :=
  nodup_eraseDups p.occurrences

mutual

def pieces : Pattern → List String
  | .literal tree => tree.pieces
  | .hole name => [name]
  | .list [] => ["(", ")"]
  | .list (p :: ps) => "(" :: (pieces p ++ piecesAfter ps)

/-- What follows the first element of a list: the other elements and the closing parenthesis. -/
def piecesAfter : List Pattern → List String
  | [] => [")"]
  | p :: ps => " " :: (pieces p ++ piecesAfter ps)

end

def text (p : Pattern) : String :=
  String.join p.pieces

end Pattern

end Sexp
