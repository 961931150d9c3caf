import Sexp.Pattern.Matching
import Sexp.Pattern.Substitution
import Sexp.Reader

/-!
# Trace records

A match or a substitution shows as a span with its events inside, and each form that is read as an
event of its own. Records are a view of what a match, a filling or a reading already says about
itself: comparing a hole with an equal tree, replacing a hole and reading no form leave no record.
-/

namespace Sexp

inductive Span where
  | matching (logged : Bool)
  | substituting (logged : Bool)
deriving DecidableEq

def Span.name : Span → String
  | .matching false => "match_tree"
  | .matching true => "match_tree_logged"
  | .substituting false => "substitute"
  | .substituting true => "substitute_logged"

inductive Event where
  | bind (hole : String) (candidate : Tree)
  | conflict (hole : String) (current candidate : Tree)
  | unbound (hole : String)
  | readForm (tree : Tree) (offset : Nat)
deriving DecidableEq

namespace Event

def message : Event → String
  | .bind _ _ => "bind"
  | .conflict _ _ _ => "conflicting rebind"
  | .unbound _ => "unbound hole"
  | .readForm _ _ => "read form"

/-- The named texts that an event carries. -/
def fields : Event → List (String × String)
  | .bind hole candidate => [("hole", hole), ("candidate", candidate.text)]
  | .conflict hole current candidate =>
    [("hole", hole), ("current", current.text), ("candidate", candidate.text)]
  | .unbound hole => [("hole", hole)]
  | .readForm tree offset => [("tree", tree.text), ("offset", toString offset)]

end Event

inductive Record where
  | enter (span : Span)
  | event (event : Event)
  | exit (span : Span)
deriving DecidableEq

def MatchStep.event? : MatchStep → Option Event
  | .bind name candidate => some (.bind name candidate)
  | .conflict name current candidate => some (.conflict name current candidate)
  | .differ _ _ | .notAList _ | .length _ _ => none

def FillStep.event? : FillStep → Option Event
  | .replace _ _ => none
  | .unbound name => some (.unbound name)

def Reader.Reading.event? (r : Reader.Reading) : Option Event :=
  match r.result with
  | .ok tree => some (.readForm tree r.after.offset)
  | .error _ => none

/-- A span with events inside it. -/
def Span.around (span : Span) (events : List Event) : List Record :=
  .enter span :: (events.map .event ++ [.exit span])

def Match.trace (logged : Bool) (m : Match) : List Record :=
  (Span.matching logged).around (m.steps.filterMap MatchStep.event?)

def Filling.trace (logged : Bool) (f : Filling α) : List Record :=
  (Span.substituting logged).around (f.steps.filterMap FillStep.event?)

/-- The records of readings one after another. -/
def Reader.trace (readings : List Reader.Reading) : List Record :=
  (readings.filterMap Reader.Reading.event?).map .event

end Sexp
