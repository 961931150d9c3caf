import Sexp.Bindings
import Sexp.Pattern

/-!
# Matching a pattern against a tree

A match goes through the pattern from left to right and stops at the first place that does not
fit. A name is bound at its first hole and compared at every later one. What was bound before a
failure stays bound: the bindings after the match are part of its answer either way.

Each binding and the place of the failure are also recorded as a step; the log of a match is read
off these steps.
-/

namespace Sexp

inductive Mismatch where
  | differs (expected got : Tree)
  | rebinds (name : String) (current : Tree)
  | notAList
  | length (expected got : Nat)
deriving DecidableEq

namespace Mismatch

def kind : Mismatch → String
  | .differs _ _ => "exact mismatch"
  | .rebinds _ _ => "already bound"
  | .notAList => "atom cannot match list"
  | .length _ _ => "length mismatch"

def message : Mismatch → String
  | .differs expected got => "expected " ++ expected.text ++ ", got " ++ got.text
  | .rebinds name current => "cannot rebind " ++ name ++ ", already bound to " ++ current.text
  | .notAList => "atom cannot match list"
  | .length expected got => s!"expected a list of length {expected}, not {got}"

end Mismatch

/-- What a match does at one place. Only `bind` lets it go on. -/
inductive MatchStep where
  | bind (name : String) (candidate : Tree)
  | conflict (name : String) (current candidate : Tree)
  | differ (expected candidate : Tree)
  | notAList (candidate : Tree)
  | length (expected : Nat) (candidates : List Tree)
deriving DecidableEq

def MatchStep.line : MatchStep → String
  | .bind name candidate => "bind " ++ name ++ " to " ++ candidate.text
  | .conflict name current candidate =>
    name ++ " is bound to " ++ current.text ++ ", not " ++ candidate.text
  | .differ expected candidate => "expected " ++ expected.text ++ ", got " ++ candidate.text
  | .notAList candidate =>
    candidate.shape.name ++ " " ++ candidate.text ++ " cannot match a list"
  | .length expected candidates =>
    s!"expected {expected} elements, " ++ (Tree.list candidates).text ++
      s!" has {candidates.length}"

/-- The outcome of a match, the bindings after it, and what it did. -/
structure Match where
  result : Except Mismatch Unit
  bindings : Bindings
  steps : List MatchStep

namespace Match

def pass (b : Bindings) : Match :=
  ⟨.ok (), b, []⟩

def fail (reason : Mismatch) (b : Bindings) (step : MatchStep) : Match :=
  ⟨.error reason, b, [step]⟩

/-- Goes on with the bindings made so far, unless the match has failed. -/
def andThen (m : Match) (next : Bindings → Match) : Match :=
  match m.result with
  | .error _ => m
  | .ok () =>
    let later := next m.bindings
    { later with steps := m.steps ++ later.steps }

def log (m : Match) : List String :=
  m.steps.map MatchStep.line

theorem andThen_of_error {m : Match} {next : Bindings → Match} {reason : Mismatch}
    (failed : m.result = .error reason) : m.andThen next = m := by
  simp [andThen, failed]

theorem andThen_of_ok {m : Match} {next : Bindings → Match} (passed : m.result = .ok ()) :
    m.andThen next =
      ⟨(next m.bindings).result, (next m.bindings).bindings,
        m.steps ++ (next m.bindings).steps⟩ := by
  simp [andThen, passed]

end Match

namespace Pattern

/-- At a hole: bind the name, or compare with what it is bound to. -/
def matchHole (name : String) (candidate : Tree) (b : Bindings) : Match :=
  match b.get? name with
  | none => ⟨.ok (), b.insert name candidate, [.bind name candidate]⟩
  | some current =>
    if current = candidate then .pass b
    else .fail (.rebinds name current) b (.conflict name current candidate)

mutual

/-- Matches one tree, starting from the bindings given. -/
def matchInto : Pattern → Tree → Bindings → Match
  | .literal expected, candidate, b =>
    if expected = candidate then .pass b
    else .fail (.differs expected candidate) b (.differ expected candidate)
  | .hole name, candidate, b => matchHole name candidate b
  | .list ps, .list ts, b =>
    if ps.length = ts.length then matchAllInto ps ts b
    else .fail (.length ps.length ts.length) b (.length ps.length ts)
  | .list _, candidate, b => .fail .notAList b (.notAList candidate)

def matchAllInto : List Pattern → List Tree → Bindings → Match
  | p :: ps, t :: ts, b => (matchInto p t b).andThen (matchAllInto ps ts)
  | _, _, b => .pass b

end

theorem matchHole_of_unbound {name : String} {candidate : Tree} {b : Bindings}
    (unbound : b.get? name = none) :
    matchHole name candidate b = ⟨.ok (), b.insert name candidate, [.bind name candidate]⟩ := by
  simp [matchHole, unbound]

theorem matchHole_of_bound {name : String} {candidate current : Tree} {b : Bindings}
    (bound : b.get? name = some current) :
    matchHole name candidate b =
      if current = candidate then .pass b
      else .fail (.rebinds name current) b (.conflict name current candidate) := by
  simp [matchHole, bound]

theorem matchInto_list_list (ps : List Pattern) (ts : List Tree) (b : Bindings) :
    matchInto (.list ps) (.list ts) b =
      if ps.length = ts.length then matchAllInto ps ts b
      else .fail (.length ps.length ts.length) b (.length ps.length ts) := by
  rw [matchInto]

/-- Induction along a match, with one case for each way in which a single place is dealt with and
two for the elements of lists of one length. A match is taken as a function of the bindings it
starts from, so that a property may speak of several starts at once. -/
theorem matchInto_induction (one : Pattern → Tree → (Bindings → Match) → Prop)
    (all : List Pattern → List Tree → (Bindings → Match) → Prop)
    (equal : ∀ e, one (.literal e) e .pass)
    (differ : ∀ e t, e ≠ t → one (.literal e) t fun b => .fail (.differs e t) b (.differ e t))
    (hole : ∀ name t, one (.hole name) t (matchHole name t))
    (atom : ∀ ps t, (∀ ts, t ≠ .list ts) →
      one (.list ps) t fun b => .fail .notAList b (.notAList t))
    (length : ∀ ps ts, ps.length ≠ ts.length → one (.list ps) (.list ts) fun b =>
      .fail (.length ps.length ts.length) b (.length ps.length ts))
    (list : ∀ ps ts, ps.length = ts.length → all ps ts (matchAllInto ps ts) →
      one (.list ps) (.list ts) (matchAllInto ps ts))
    (nil : all [] [] .pass)
    (cons : ∀ p ps t ts, one p t (p.matchInto t) → all ps ts (matchAllInto ps ts) →
      all (p :: ps) (t :: ts) fun b => (p.matchInto t b).andThen (matchAllInto ps ts))
    (p : Pattern) (t : Tree) : one p t (p.matchInto t) := by
  have elements : ∀ ps, (∀ p ∈ ps, ∀ t, one p t (p.matchInto t)) →
      ∀ ts, ps.length = ts.length → all ps ts (matchAllInto ps ts) := by
    intro ps each
    induction ps with
    | nil =>
      intro ts same
      obtain rfl := List.length_eq_zero_iff.1 same.symm
      exact nil
    | cons p ps ih =>
      intro ts same
      obtain ⟨t, ts, rfl⟩ := List.exists_cons_of_length_eq_add_one same.symm
      have first := each p List.mem_cons_self t
      have later := ih (fun q mem => each q (List.mem_cons_of_mem p mem)) ts (Nat.succ.inj same)
      exact cons p ps t ts first later
  induction p generalizing t with
  | literal e =>
    by_cases same : e = t
    · subst same
      have pass : (literal e).matchInto e = .pass := funext fun b => by rw [matchInto, if_pos rfl]
      exact pass ▸ equal e
    · have fail : (literal e).matchInto t = fun b => .fail (.differs e t) b (.differ e t) :=
        funext fun b => by rw [matchInto, if_neg same]
      exact fail ▸ differ e t same
  | hole name => exact hole name t
  | list ps each =>
    cases t with
    | invalid | symbol | number =>
      apply atom
      intro ts same
      cases same
    | list ts =>
      by_cases same : ps.length = ts.length
      · have inside : (Pattern.list ps).matchInto (.list ts) = matchAllInto ps ts :=
          funext fun b => by rw [matchInto_list_list, if_pos same]
        exact inside ▸ list ps ts same (elements ps each ts same)
      · have fail : (Pattern.list ps).matchInto (.list ts) = fun b =>
            .fail (.length ps.length ts.length) b (.length ps.length ts) :=
          funext fun b => by rw [matchInto_list_list, if_neg same]
        exact fail ▸ length ps ts same

/-- The bindings that a match makes on its own, if it succeeds as a whole. -/
def solve (p : Pattern) (candidate : Tree) : Except Mismatch Bindings :=
  let m := p.matchInto candidate ∅
  m.result.map fun () => m.bindings

end Pattern

end Sexp
