import Sexp.Proofs.Filling.Holes
import Sexp.Proofs.Matching.Series

/-!
# What matching depends on

Matching reads the bindings at the holes of the pattern and nowhere else. Two matches of a pattern
against the same tree, from bindings that answer alike at its holes, take the same steps; the
bindings go on answering alike there, and elsewhere stay as they were. On what it left, or any
extension of that, a match made again finds what it has bound and fails at the same place, since the
place of a failure leaves nothing to bind.
-/

namespace Sexp

/-! ## From bindings that answer alike -/

def Bindings.SameOn (names : List String) (b c : Bindings) : Prop :=
  ∀ name ∈ names, b.get? name = c.get? name

def Bindings.Gains (b c : Bindings) (name : String) (tree : Tree) : Prop :=
  c.get? name = some tree ∧ b.get? name ≠ some tree

namespace Match

variable {names : List String} {m n : Match} {next : Bindings → Match}

structure SameOn (names : List String) (m n : Match) : Prop where
  result : m.result = n.result
  steps : m.steps = n.steps
  bindings : m.bindings.SameOn names n.bindings

theorem SameOn.andThen (first : m.SameOn names n)
    (later : (next m.bindings).SameOn names (next n.bindings)) :
    (m.andThen next).SameOn names (n.andThen next) := by
  cases outcome : m.result with
  | error reason =>
    rw [andThen_of_error outcome, andThen_of_error (first.result.symm.trans outcome)]
    exact first
  | ok =>
    rw [andThen_of_ok outcome, andThen_of_ok (first.result.symm.trans outcome), first.steps,
      later.steps]
    exact ⟨later.result, rfl, later.bindings⟩

end Match

namespace Pattern

variable {names : List String}

theorem matchHole_sameOn {name : String} (mem : name ∈ names) (t : Tree) {b c : Bindings}
    (same : b.SameOn names c) : (matchHole name t b).SameOn names (matchHole name t c) := by
  have here : b.get? name = c.get? name := same name mem
  cases found : c.get? name with
  | none =>
    rw [matchHole_of_unbound (here.trans found), matchHole_of_unbound found]
    refine ⟨rfl, rfl, fun other listed => ?_⟩
    rw [Bindings.get?_insert, Bindings.get?_insert, same other listed]
  | some current =>
    rw [matchHole_of_bound (here.trans found), matchHole_of_bound found]
    split <;> exact ⟨rfl, rfl, same⟩

/-- The names may be more than the holes, so that they can be those of a list around the
pattern. -/
theorem matchInto_sameOn {p : Pattern} (holes : ∀ name ∈ p.occurrences, name ∈ names) (t : Tree)
    {b c : Bindings} (same : b.SameOn names c) :
    (p.matchInto t b).SameOn names (p.matchInto t c) := by
  revert b c holes
  apply matchInto_induction
    (fun p _ f => (∀ name ∈ p.occurrences, name ∈ names) →
      ∀ {b c : Bindings}, b.SameOn names c → (f b).SameOn names (f c))
    (fun ps _ f => (∀ name ∈ ps.flatMap occurrences, name ∈ names) →
      ∀ {b c : Bindings}, b.SameOn names c → (f b).SameOn names (f c))
  case equal | differ | atom | length | nil =>
    intros
    refine ⟨rfl, rfl, ?_⟩
    assumption
  case hole =>
    intro name t holes b c
    exact matchHole_sameOn (holes name (List.mem_singleton_self name)) t
  case list =>
    intro ps ts _ elements holes
    exact elements (occurrences_list ps ▸ holes)
  case cons =>
    intro p ps t ts first later holes b c same
    rw [List.flatMap_cons, List.forall_mem_append] at holes
    -- What the first element leaves is again alike at all the names, its own and those to come.
    have head := first holes.1 same
    exact head.andThen (later holes.2 head.bindings)

theorem gains_matchInto_iff {p : Pattern} {b c : Bindings} (same : b.SameOn p.holes c) (t : Tree)
    (name : String) (tree : Tree) :
    b.Gains (p.matchInto t b).bindings name tree ↔
      c.Gains (p.matchInto t c).bindings name tree := by
  have after := (matchInto_sameOn (fun name => mem_holes.2) t same).bindings
  rw [Bindings.Gains, Bindings.Gains]
  by_cases hole : name ∈ p.holes
  · rw [after name hole, same name hole]
  · rw [get?_matchInto_of_not_mem hole, get?_matchInto_of_not_mem hole]
    exact iff_of_false and_not_self and_not_self

/-- From bindings that answer alike at the holes of a pattern, a match comes to the same result or
fails for the same reason, adds the same entries and writes the same log; and filling the pattern
comes to the same tree or fails at the same name, with the same log. -/
theorem holes_determine (p : Pattern) (t : Tree) (b c : Bindings)
    (same : ∀ name ∈ p.holes, b.get? name = c.get? name) :
    (p.matchInto t b).result = (p.matchInto t c).result ∧
    (∀ name tree, b.Gains (p.matchInto t b).bindings name tree ↔
      c.Gains (p.matchInto t c).bindings name tree) ∧
    (p.matchInto t b).log = (p.matchInto t c).log ∧
    p.substitute b = p.substitute c ∧ (p.fill b).log = (p.fill c).log := by
  have matched := matchInto_sameOn (fun name => mem_holes.2) t same
  have filled : p.fill b = p.fill c := fill_congr fun name hole => same name (mem_holes.2 hole)
  exact ⟨matched.result, gains_matchInto_iff same t, congrArg (List.map _) matched.steps,
    congrArg Filling.result filled, congrArg Filling.log filled⟩

/-- Only one of the two binds `z`, the other binds `w`, and the match fails after it has bound
`y`. -/
theorem holes_determine_conflict :
    let p : Pattern := .list [.hole "y", .hole "x"]
    let t : Tree := .list [.symbol "z", .number 2]
    let b : Bindings := .ofList [("x", .number 1), ("z", .invalid)]
    let c : Bindings := .ofList [("w", .list []), ("x", .number 1)]
    b ≠ c ∧ (∀ name ∈ p.holes, b.get? name = c.get? name) ∧
      (p.matchInto t c).result = .error (.rebinds "x" (.number 1)) ∧
      (p.matchInto t b).result = .error (.rebinds "x" (.number 1)) ∧
      b.Gains (p.matchInto t b).bindings "y" (.symbol "z") ∧
      c.Gains (p.matchInto t c).bindings "y" (.symbol "z") ∧
      (p.matchInto t b).log = (p.matchInto t c).log ∧
      p.substitute b = .error ⟨"y"⟩ ∧ (p.fill b).log = ["y is not bound"] := by
  intro p t b c
  have same : ∀ name ∈ p.holes, b.get? name = c.get? name := by decide
  have failed : (p.matchInto t c).result = .error (.rebinds "x" (.number 1)) := rfl
  have added : c.Gains (p.matchInto t c).bindings "y" (.symbol "z") := ⟨rfl, by decide⟩
  have missing : p.substitute c = .error ⟨"y"⟩ := rfl
  have reported : (p.fill c).log = ["y is not bound"] := rfl
  obtain ⟨result, gains, log, filled, told⟩ := holes_determine p t b c same
  exact ⟨by decide, same, failed, result.trans failed, (gains "y" (.symbol "z")).2 added, added, log,
    filled.trans missing, told.trans reported⟩

end Pattern

/-! ## Again, on what it left -/

def MatchStep.isBind : MatchStep → Bool
  | .bind _ _ => true
  | .conflict _ _ _ | .differ _ _ | .notAList _ | .length _ _ => false

namespace Match

variable {b c : Bindings} {m : Match} {next : Bindings → Match}

/-- The match without what it binds, on other bindings: only a failure takes a step. -/
def again (m : Match) (c : Bindings) : Match :=
  ⟨m.result, c, m.steps.filter (!·.isBind)⟩

theorem bind_not_mem_again (m : Match) (c : Bindings) (name : String) (tree : Tree) :
    .bind name tree ∉ (m.again c).steps := by
  simp [again, MatchStep.isBind]

theorem again_andThen {repeated : Match} (keeps : m.bindings ≤ (next m.bindings).bindings)
    (le : (m.andThen next).bindings ≤ c) (first : m.bindings ≤ c → repeated = m.again c)
    (later : (next m.bindings).bindings ≤ c → next c = (next m.bindings).again c) :
    repeated.andThen next = (m.andThen next).again c := by
  cases outcome : m.result with
  | error reason =>
    rw [andThen_of_error outcome] at le ⊢
    have failed : (m.again c).result = .error reason := outcome
    rw [first le, andThen_of_error failed]
  | ok =>
    rw [andThen_of_ok outcome] at le ⊢
    have passed : (m.again c).result = .ok () := outcome
    have rest : next (m.again c).bindings = (next m.bindings).again c := later le
    rw [first (le_trans keeps le), andThen_of_ok passed, rest]
    simp only [again, List.filter_append]

end Match

namespace Pattern

variable {c : Bindings}

theorem matchHole_again {name : String} {t : Tree} {b : Bindings}
    (le : (matchHole name t b).bindings ≤ c) :
    matchHole name t c = (matchHole name t b).again c := by
  cases found : b.get? name with
  | none =>
    rw [matchHole_of_unbound found] at le ⊢
    have inserted : (b.insert name t).get? name = some t := by rw [Bindings.get?_insert, if_pos rfl]
    have bound : c.get? name = some t := Bindings.get?_of_le le inserted
    rw [matchHole_of_bound bound, if_pos rfl]
    rfl
  | some current =>
    have kept : b ≤ c := le_trans (matchHole_grows name t b).keeps le
    rw [matchHole_of_bound (Bindings.get?_of_le kept found), matchHole_of_bound found]
    split <;> rfl

theorem matchInto_again (p : Pattern) (t : Tree) (b : Bindings)
    (le : (p.matchInto t b).bindings ≤ c) : p.matchInto t c = (p.matchInto t b).again c := by
  revert b
  apply matchInto_induction (fun _ _ f => ∀ b, (f b).bindings ≤ c → f c = (f b).again c)
    (fun _ _ f => ∀ b, (f b).bindings ≤ c → f c = (f b).again c)
  case equal | differ | atom | length | nil => intros; rfl
  case hole => exact fun name t b => matchHole_again
  case list => exact fun ps ts _ elements => elements
  case cons =>
    intro p ps t ts first later b le
    exact Match.again_andThen (le_matchAllInto ps ts _) le (first b) (later _)

/-- A match made again on what it left comes to the same result, be it a failure, and leaves the
same bindings. It binds nothing: its log holds the line of the failure, if there is one. -/
theorem matchInto_twice (p : Pattern) (t : Tree) (b₀ : Bindings) :
    let m := p.matchInto t b₀
    let repeated := p.matchInto t m.bindings
    repeated.result = m.result ∧ repeated.bindings = m.bindings ∧
      (∀ name tree, .bind name tree ∉ repeated.steps) ∧
      repeated.log = (m.steps.filter (!·.isBind)).map MatchStep.line := by
  intro m repeated
  have same : repeated = m.again m.bindings := matchInto_again p t b₀ (le_refl m.bindings)
  rw [same]
  exact ⟨rfl, rfl, m.bind_not_mem_again m.bindings, rfl⟩

/-- The first match binds both names before it fails; the second only fails. -/
example :
    let p : Pattern := .list [.hole "x", .hole "y", .hole "x"]
    let t : Tree := .list [.number 1, .invalid, .number 2]
    let m := p.matchInto t ∅
    m.steps = [.bind "x" (.number 1), .bind "y" .invalid, .conflict "x" (.number 1) (.number 2)] ∧
      (p.matchInto t m.bindings).steps = [.conflict "x" (.number 1) (.number 2)] := by
  decide

end Pattern

end Sexp
