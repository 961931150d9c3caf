import Sexp.Bindings
import Sexp.Pattern
import Sexp.Text.Quoted

/-!
# Filling the holes of a pattern

A pattern is filled from left to right, each hole with the tree that its name is bound to, and the
first unbound hole stops it. Every hole that is reached is recorded as a step, repetitions
included; the log is read off these steps.
-/

namespace Sexp

structure UnboundHole where
  name : String
deriving DecidableEq

def UnboundHole.message (e : UnboundHole) : String :=
  "unbound symbol " ++ Text.Quoted.quote e.name

/-- The message tells which hole it is, whatever its name. -/
theorem UnboundHole.message_inj {e f : UnboundHole} : e.message = f.message ↔ e = f := by
  refine ⟨fun same => ?_, congrArg message⟩
  obtain ⟨name⟩ := e
  obtain ⟨other⟩ := f
  have quoted : Text.Quoted.quote name = Text.Quoted.quote other :=
    (String.append_right_inj "unbound symbol ").1 same
  exact congrArg mk (Text.Quoted.quote_inj.1 quoted)

inductive FillStep where
  | replace (name : String) (tree : Tree)
  | unbound (name : String)
deriving DecidableEq

def FillStep.line : FillStep → String
  | .replace name tree => "substitute " ++ name ++ " with " ++ tree.text
  | .unbound name => name ++ " is not bound"

/-- What filling came to, and the holes it reached. -/
structure Filling (α : Type) where
  result : Except UnboundHole α
  steps : List FillStep

def Filling.log (f : Filling α) : List String :=
  f.steps.map FillStep.line

namespace Pattern

def fillHole (name : String) (b : Bindings) : Filling Tree :=
  match b.get? name with
  | some tree => ⟨.ok tree, [.replace name tree]⟩
  | none => ⟨.error ⟨name⟩, [.unbound name]⟩

mutual

def fill : Pattern → Bindings → Filling Tree
  | .literal tree, _ => ⟨.ok tree, []⟩
  | .hole name, b => fillHole name b
  | .list ps, b =>
    let filled := fillAll ps b
    ⟨filled.result.map .list, filled.steps⟩

def fillAll : List Pattern → Bindings → Filling (List Tree)
  | [], _ => ⟨.ok [], []⟩
  | p :: ps, b =>
    let first := fill p b
    match first.result with
    | .error e => ⟨.error e, first.steps⟩
    | .ok tree =>
      let later := fillAll ps b
      ⟨later.result.map (tree :: ·), first.steps ++ later.steps⟩

end

/-- The tree that the pattern becomes. -/
def substitute (p : Pattern) (b : Bindings) : Except UnboundHole Tree :=
  (p.fill b).result

def substituteAll (ps : List Pattern) (b : Bindings) : Except UnboundHole (List Tree) :=
  (fillAll ps b).result

@[simp] theorem substitute_literal (tree : Tree) (b : Bindings) :
    (literal tree).substitute b = .ok tree := rfl

@[simp] theorem substitute_hole (name : String) (b : Bindings) :
    (hole name).substitute b =
      match b.get? name with
      | some tree => .ok tree
      | none => .error ⟨name⟩ := by
  simp only [substitute, fill, fillHole]
  split <;> rfl

@[simp] theorem substitute_list (ps : List Pattern) (b : Bindings) :
    (list ps).substitute b = (substituteAll ps b).map .list := rfl

@[simp] theorem substituteAll_nil (b : Bindings) : substituteAll [] b = .ok [] := rfl

@[simp] theorem substituteAll_cons (p : Pattern) (ps : List Pattern) (b : Bindings) :
    substituteAll (p :: ps) b =
      match p.substitute b with
      | .error e => .error e
      | .ok tree => (substituteAll ps b).map (tree :: ·) := by
  simp only [substituteAll, substitute, fillAll]
  split <;> rfl

theorem substitute_hole_eq_ok {name : String} {b : Bindings} {tree : Tree} :
    (hole name).substitute b = .ok tree ↔ b.get? name = some tree := by
  rw [substitute_hole]
  cases b.get? name <;> simp

theorem substitute_list_eq_ok {ps : List Pattern} {b : Bindings} {tree : Tree} :
    (list ps).substitute b = .ok tree ↔
      ∃ trees, tree = .list trees ∧ substituteAll ps b = .ok trees := by
  rw [substitute_list]
  cases substituteAll ps b <;> simp [Except.map, eq_comm]

theorem substituteAll_cons_eq_ok {p : Pattern} {ps : List Pattern} {b : Bindings}
    {trees : List Tree} :
    substituteAll (p :: ps) b = .ok trees ↔
      ∃ tree later, trees = tree :: later ∧ p.substitute b = .ok tree ∧
        substituteAll ps b = .ok later := by
  rw [substituteAll_cons]
  cases p.substitute b with
  | error e => simp
  | ok tree => cases substituteAll ps b <;> simp [Except.map, eq_comm]

theorem substituteAll_map_congr {f g : α → Pattern} {xs : List α} {b c : Bindings}
    (each : ∀ x ∈ xs, (f x).substitute b = (g x).substitute c) :
    substituteAll (xs.map f) b = substituteAll (xs.map g) c := by
  induction xs with
  | nil => rfl
  | cons x xs ih =>
    have first := each x List.mem_cons_self
    have later := ih fun y mem => each y (List.mem_cons_of_mem x mem)
    rw [List.map_cons, List.map_cons, substituteAll_cons, substituteAll_cons, first, later]

theorem exists_mem_of_substituteAll {p : Pattern} {ps : List Pattern} {b : Bindings}
    {trees : List Tree} (filled : substituteAll ps b = .ok trees) (mem : p ∈ ps) :
    ∃ tree ∈ trees, p.substitute b = .ok tree := by
  induction ps generalizing trees with
  | nil => contradiction
  | cons q ps ih =>
    obtain ⟨tree, later, rfl, first, rest⟩ := substituteAll_cons_eq_ok.1 filled
    rcases List.mem_cons.1 mem with rfl | mem
    · exact ⟨tree, List.mem_cons_self, first⟩
    · obtain ⟨other, inside, found⟩ := ih rest mem
      exact ⟨other, List.mem_cons_of_mem tree inside, found⟩

theorem exists_substitute_of_mem {p : Pattern} {ps : List Pattern} {b : Bindings}
    {trees : List Tree} (filled : substituteAll ps b = .ok trees) (mem : p ∈ ps) :
    ∃ tree, p.substitute b = .ok tree := by
  obtain ⟨tree, -, found⟩ := exists_mem_of_substituteAll filled mem
  exact ⟨tree, found⟩

theorem length_of_substituteAll {ps : List Pattern} {b : Bindings} {trees : List Tree}
    (filled : substituteAll ps b = .ok trees) : ps.length = trees.length := by
  induction ps generalizing trees with
  | nil =>
    cases filled
    rfl
  | cons p ps ih =>
    obtain ⟨tree, later, rfl, -, rest⟩ := substituteAll_cons_eq_ok.1 filled
    rw [List.length_cons, List.length_cons, ih rest]

end Pattern

end Sexp
