import Sexp.Pattern.Matching

/-!
# A match as a list of obligations

What a pattern asks of a tree is written down, place by place and from left to right, without
looking at any bindings. A match then comes to the same as meeting these obligations in order until
one cannot be met. This says which of several places that do not fit is reported, and which
bindings a failed match leaves: those of the obligations before the first that failed.
-/

namespace Sexp

/-- What one place of a pattern asks. The last two cannot be met. -/
inductive Obligation where
  | equal (expected got : Tree)
  | bind (name : String) (tree : Tree)
  | notAList
  | length (expected got : Nat)
deriving DecidableEq

namespace Pattern

mutual

/-- The obligations of a pattern against a tree, in pre-order. -/
def obligations : Pattern → Tree → List Obligation
  | .literal expected, candidate => [.equal expected candidate]
  | .hole name, candidate => [.bind name candidate]
  | .list ps, .list ts =>
    if ps.length = ts.length then obligationsAll ps ts else [.length ps.length ts.length]
  | .list _, _ => [.notAList]

def obligationsAll : List Pattern → List Tree → List Obligation
  | p :: ps, t :: ts => obligations p t ++ obligationsAll ps ts
  | _, _ => []

end

theorem obligations_list_list (ps : List Pattern) (ts : List Tree) :
    (list ps).obligations (.list ts) =
      if ps.length = ts.length then obligationsAll ps ts else [.length ps.length ts.length] := by
  rw [obligations]

end Pattern

/-- What a match comes to, apart from the steps it takes. -/
abbrev Outcome := Except Mismatch Unit × Bindings

def Match.outcome (m : Match) : Outcome :=
  (m.result, m.bindings)

namespace Outcome

def andThen (o : Outcome) (next : Bindings → Outcome) : Outcome :=
  match o.1 with
  | .error _ => o
  | .ok () => next o.2

end Outcome

theorem Match.outcome_andThen (m : Match) (next : Bindings → Match) :
    (m.andThen next).outcome = m.outcome.andThen fun b => (next b).outcome := by
  rw [outcome, outcome, Outcome.andThen]
  cases passed : m.result with
  | error reason => rw [andThen_of_error passed, passed]
  | ok => rw [andThen_of_ok passed, outcome]

namespace Obligation

/-- The bindings after an obligation is met, or why it cannot be met. -/
def meet : Obligation → Bindings → Except Mismatch Bindings
  | .equal expected got, b => if expected = got then .ok b else .error (.differs expected got)
  | .bind name tree, b =>
    match b.get? name with
    | none => .ok (b.insert name tree)
    | some current => if current = tree then .ok b else .error (.rebinds name current)
  | .notAList, _ => .error .notAList
  | .length expected got, _ => .error (.length expected got)

def meetAll : List Obligation → Bindings → Outcome
  | [], b => (.ok (), b)
  | o :: os, b =>
    match o.meet b with
    | .ok c => meetAll os c
    | .error reason => (.error reason, b)

variable {o : Obligation} {os : List Obligation} {b c : Bindings} {reason : Mismatch}

theorem meetAll_cons_of_ok (met : o.meet b = .ok c) : meetAll (o :: os) b = meetAll os c := by
  rw [meetAll, met]

theorem meetAll_cons_of_error (failed : o.meet b = .error reason) :
    meetAll (o :: os) b = (.error reason, b) := by
  rw [meetAll, failed]

theorem meetAll_append (os later : List Obligation) (b : Bindings) :
    meetAll (os ++ later) b = (meetAll os b).andThen (meetAll later) := by
  induction os generalizing b with
  | nil => rfl
  | cons o os ih =>
    rw [List.cons_append]
    cases met : o.meet b with
    | error reason => rw [meetAll_cons_of_error met, meetAll_cons_of_error met, Outcome.andThen]
    | ok c => rw [meetAll_cons_of_ok met, meetAll_cons_of_ok met, ih]

theorem get?_of_meet {name : String} {current : Tree}
    (failed : o.meet b = .error (.rebinds name current)) : b.get? name = some current := by
  cases o with
  | equal expected got =>
    rw [meet] at failed
    split at failed <;> cases failed
  | bind other tree =>
    rw [meet] at failed
    split at failed
    next => cases failed
    next u found =>
      split at failed <;> cases failed
      exact found
  | notAList | length => cases failed

theorem get?_of_meetAll {name : String} {current : Tree}
    (failed : (meetAll os b).1 = .error (.rebinds name current)) :
    (meetAll os b).2.get? name = some current := by
  induction os generalizing b with
  | nil => cases failed
  | cons o os ih =>
    cases met : o.meet b with
    | error reason =>
      rw [meetAll_cons_of_error met] at failed ⊢
      obtain rfl := Except.error.inj failed
      exact get?_of_meet met
    | ok c =>
      rw [meetAll_cons_of_ok met] at failed ⊢
      exact ih failed

end Obligation

namespace Pattern

open Obligation

theorem outcome_matchHole (name : String) (t : Tree) (b : Bindings) :
    (matchHole name t b).outcome = meetAll [.bind name t] b := by
  rw [meetAll, meet]
  cases found : b.get? name with
  | none => rw [matchHole_of_unbound found]; rfl
  | some current =>
    rw [matchHole_of_bound found]
    dsimp only
    split <;> rfl

theorem outcome_matchInto (p : Pattern) (t : Tree) (b : Bindings) :
    (p.matchInto t b).outcome = meetAll (p.obligations t) b := by
  revert b
  apply matchInto_induction (fun p t f => ∀ b, (f b).outcome = meetAll (p.obligations t) b)
    (fun ps ts f => ∀ b, (f b).outcome = meetAll (obligationsAll ps ts) b)
  case equal => intro e b; rw [obligations, meetAll, meet, if_pos rfl]; rfl
  case differ => intro e t differ b; rw [obligations, meetAll, meet, if_neg differ]; rfl
  case hole => exact outcome_matchHole
  case atom =>
    intro ps t atom b
    cases t with
    | invalid | symbol | number => rfl
    | list ts => exact absurd rfl (atom ts)
  case length => intro ps ts differ b; rw [obligations_list_list, if_neg differ]; rfl
  case list => intro ps ts same elements b; rw [obligations_list_list, if_pos same, elements]
  case nil => exact fun _ => rfl
  case cons =>
    intro p ps t ts first later b
    -- The rest starts from whatever the first element leaves, hence an equality of functions.
    have rest : (fun c => (matchAllInto ps ts c).outcome) = meetAll (obligationsAll ps ts) :=
      funext later
    rw [Match.outcome_andThen, obligationsAll, meetAll_append, first, rest]

/-- A match meets its obligations in order up to the first that fails, which it reports. If that is
a name bound to another tree, the name is still bound to the reported tree after the match. -/
theorem matchInto_meets_obligations (p : Pattern) (t : Tree) (b₀ : Bindings) :
    ((p.matchInto t b₀).result, (p.matchInto t b₀).bindings) = meetAll (p.obligations t) b₀ ∧
      ∀ name current, (p.matchInto t b₀).result = .error (.rebinds name current) →
        (p.matchInto t b₀).bindings.get? name = some current := by
  have same : (p.matchInto t b₀).outcome = meetAll (p.obligations t) b₀ := outcome_matchInto p t b₀
  refine ⟨same, fun name current failed => ?_⟩
  have reported : (meetAll (p.obligations t) b₀).1 = .error (.rebinds name current) := by
    rw [← same]
    exact failed
  have kept := get?_of_meetAll reported
  rw [← same] at kept
  exact kept

/-- The conflict at the nested hole is reported as it is, and the hole after it stays unbound. -/
example :
    ((list [.hole "x", .list [.hole "x"], .hole "y"]).matchInto
      (.list [.number 1, .list [.number 2], .number 3]) ∅).outcome =
      (.error (.rebinds "x" (.number 1)), .ofList [("x", .number 1)]) := by
  rfl

end Pattern

end Sexp
