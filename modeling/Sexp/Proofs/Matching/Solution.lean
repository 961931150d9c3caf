import Sexp.Pattern.Matching
import Sexp.Pattern.Substitution
import Sexp.Proofs.Bindings.Extension

/-!
# Matching solves for the holes

A solution of a pattern for a tree is bindings with which the pattern becomes that tree. Matching
finds the least one above the bindings it starts from: it succeeds within `c` exactly when `c` is a
solution (`matchInto_within_iff`), and what it binds are the holes.
-/

namespace Sexp

namespace Match

variable {b c : Bindings} {m : Match} {next : Bindings → Match} {names more : List String}

/-- The match drops no entry of `b` and binds no further names but the listed ones. -/
structure Grows (b : Bindings) (names : List String) (m : Match) : Prop where
  keeps : b ≤ m.bindings
  names : ∀ name, m.bindings.contains name → b.contains name ∨ name ∈ names

/-- The match succeeds, and every binding after it is one of `c`. -/
def Within (c : Bindings) (m : Match) : Prop :=
  m.result = .ok () ∧ m.bindings ≤ c

theorem Grows.refl (same : m.bindings = b) : m.Grows b names := by
  constructor
  · exact same ▸ le_refl b
  · intro name bound
    exact .inl (same ▸ bound)

theorem Grows.andThen (first : m.Grows b names)
    (later : (next m.bindings).Grows m.bindings more) :
    (m.andThen next).Grows b (names ++ more) := by
  cases outcome : m.result with
  | error reason =>
    rw [andThen_of_error outcome]
    refine ⟨first.keeps, fun name bound => ?_⟩
    exact (first.names name bound).imp_right (List.mem_append_left more)
  | ok =>
    rw [andThen_of_ok outcome]
    refine ⟨le_trans first.keeps later.keeps, fun name bound => ?_⟩
    rcases later.names name bound with earlier | new
    · exact (first.names name earlier).imp_right (List.mem_append_left more)
    · exact .inr (List.mem_append_right names new)

theorem within_pass : (pass b).Within c ↔ b ≤ c := by
  simp [Within, pass]

theorem not_within_fail (reason : Mismatch) (step : MatchStep) :
    ¬(fail reason b step).Within c := by
  simp [Within, fail]

theorem within_andThen (keeps : m.bindings ≤ (next m.bindings).bindings) :
    (m.andThen next).Within c ↔ m.Within c ∧ (next m.bindings).Within c := by
  cases outcome : m.result with
  | error reason =>
    rw [andThen_of_error outcome]
    simp [Within, outcome]
  | ok =>
    rw [andThen_of_ok outcome]
    constructor
    · intro within
      have earlier : m.bindings ≤ c := le_trans keeps within.2
      exact ⟨⟨outcome, earlier⟩, within⟩
    · intro within
      exact within.2

end Match

namespace Pattern

theorem matchHole_grows (name : String) (t : Tree) (b : Bindings) :
    (matchHole name t b).Grows b [name] := by
  cases found : b.get? name with
  | none =>
    rw [matchHole_of_unbound found]
    refine ⟨Bindings.le_insert found, fun other bound => ?_⟩
    by_cases same : name = other
    · exact .inr (by simp [same])
    · exact .inl (by simpa [same] using bound)
  | some current =>
    rw [matchHole_of_bound found]
    split <;> exact .refl rfl

theorem matchAllInto_grows {ps : List Pattern}
    (each : ∀ p ∈ ps, ∀ t b, (p.matchInto t b).Grows b p.occurrences) (ts : List Tree)
    (b : Bindings) : (matchAllInto ps ts b).Grows b (ps.flatMap occurrences) := by
  induction ps generalizing ts b with
  | nil => exact .refl (by simp [matchAllInto, Match.pass])
  | cons p ps ih =>
    cases ts with
    | nil => exact .refl (by simp [matchAllInto, Match.pass])
    | cons t ts =>
      have first := each p List.mem_cons_self t b
      have later := ih (fun q mem => each q (List.mem_cons_of_mem p mem)) ts
      rw [matchAllInto, List.flatMap_cons]
      exact first.andThen (later _)

/-- Matching drops nothing and binds holes of the pattern only, whether it succeeds or not. -/
theorem matchInto_grows (p : Pattern) (t : Tree) (b : Bindings) :
    (p.matchInto t b).Grows b p.occurrences := by
  induction p generalizing t b with
  | literal e =>
    rw [matchInto]
    split <;> exact .refl rfl
  | hole name => exact matchHole_grows name t b
  | list ps each =>
    cases t with
    | invalid | symbol | number => exact .refl rfl
    | list ts =>
      rw [matchInto_list_list, occurrences_list]
      split
      · exact matchAllInto_grows each ts b
      · exact .refl rfl

theorem le_matchAllInto (ps : List Pattern) (ts : List Tree) (b : Bindings) :
    b ≤ (matchAllInto ps ts b).bindings :=
  (matchAllInto_grows (fun p _ => p.matchInto_grows) ts b).keeps

theorem matchHole_within_iff {name : String} {t : Tree} {b c : Bindings} (le : b ≤ c) :
    (matchHole name t b).Within c ↔ c.get? name = some t := by
  cases found : b.get? name with
  | none =>
    rw [matchHole_of_unbound found, ← Bindings.insert_le_iff le]
    exact ⟨And.right, fun inserted => ⟨rfl, inserted⟩⟩
  | some current =>
    rw [matchHole_of_bound found, Bindings.get?_of_le le found, Option.some.injEq]
    split
    next same => simp [Match.within_pass, le, same]
    next differ => simp [Match.not_within_fail, differ]

/-- Above the bindings that a match starts from, it succeeds within exactly the solutions. -/
theorem matchInto_within_iff (p : Pattern) (t : Tree) {b c : Bindings} (le : b ≤ c) :
    (p.matchInto t b).Within c ↔ p.substitute c = .ok t := by
  revert b
  apply matchInto_induction
    (fun p t f => ∀ {b}, b ≤ c → ((f b).Within c ↔ p.substitute c = .ok t))
    (fun ps ts f => ∀ {b}, b ≤ c → ((f b).Within c ↔ substituteAll ps c = .ok ts))
  case equal => intro e b le; simp [Match.within_pass, le]
  case differ => intro e t differ b le; simp [Match.not_within_fail, differ]
  case hole => intro name t b le; rw [matchHole_within_iff le, substitute_hole_eq_ok]
  case atom =>
    intro ps t atom b le
    apply iff_of_false (Match.not_within_fail _ _)
    intro filled
    obtain ⟨ts, same, -⟩ := substitute_list_eq_ok.1 filled
    exact atom ts same
  case length =>
    intro ps ts differ b le
    apply iff_of_false (Match.not_within_fail _ _)
    intro filled
    obtain ⟨us, same, filled⟩ := substitute_list_eq_ok.1 filled
    obtain rfl := Tree.list.inj same
    exact differ (length_of_substituteAll filled)
  case list =>
    intro ps ts _ elements b le
    rw [elements le, substitute_list_eq_ok]
    simp
  case nil => intro b le; simp [Match.within_pass, le]
  case cons =>
    intro p ps t ts one rest b le
    rw [Match.within_andThen (le_matchAllInto ps ts _), one le, substituteAll_cons_eq_ok]
    constructor
    · intro within
      obtain ⟨filled, later⟩ := within
      -- The first element has been matched within `c`, so the others start from below `c`.
      have first : (p.matchInto t b).Within c := (one le).2 filled
      exact ⟨t, ts, rfl, filled, (rest first.2).1 later⟩
    · intro filled
      obtain ⟨u, us, equal, filled, others⟩ := filled
      obtain ⟨rfl, rfl⟩ := List.cons.inj equal
      have first : (p.matchInto t b).Within c := (one le).2 filled
      exact ⟨filled, (rest first.2).2 others⟩

theorem substitute_of_matchInto {p : Pattern} {t : Tree} {b : Bindings}
    (passed : (p.matchInto t b).result = .ok ()) :
    p.substitute (p.matchInto t b).bindings = .ok t :=
  (matchInto_within_iff p t (p.matchInto_grows t b).keeps).1 ⟨passed, le_refl _⟩

theorem contains_of_substitute {p : Pattern} {t : Tree} {b : Bindings} {name : String}
    (filled : p.substitute b = .ok t) (hole : name ∈ p.occurrences) : b.contains name := by
  induction p generalizing t with
  | literal e => simp [occurrences] at hole
  | hole other =>
    obtain rfl : name = other := by simpa [occurrences] using hole
    rw [Bindings.contains_eq, substitute_hole_eq_ok.1 filled]
    rfl
  | list ps each =>
    obtain ⟨trees, -, filled⟩ := substitute_list_eq_ok.1 filled
    rw [occurrences_list, List.mem_flatMap] at hole
    obtain ⟨p, mem, hole⟩ := hole
    obtain ⟨u, filled⟩ := exists_substitute_of_mem filled mem
    exact each p mem filled hole

theorem contains_matchInto_iff {p : Pattern} {t : Tree} {b : Bindings}
    (passed : (p.matchInto t b).result = .ok ()) (name : String) :
    (p.matchInto t b).bindings.contains name ↔ b.contains name ∨ name ∈ p.holes := by
  have grows := p.matchInto_grows t b
  constructor
  · intro bound
    exact (grows.names name bound).imp_right mem_holes.2
  · intro known
    rcases known with earlier | hole
    · exact Bindings.contains_of_le grows.keeps earlier
    · exact contains_of_substitute (substitute_of_matchInto passed) (mem_holes.1 hole)

/-- Matching is solving: it succeeds and leaves `b₁` exactly when `b₁` extends the bindings it
started from by the holes and makes the pattern the tree, and it fails exactly when there is no
solution to extend them to. -/
theorem matchInto_eq_ok_iff_solution (p : Pattern) (t : Tree) (b₀ b₁ : Bindings) :
    ((p.matchInto t b₀).result = .ok () ∧ (p.matchInto t b₀).bindings = b₁ ↔
      b₀ ≤ b₁ ∧ (∀ name, b₁.contains name ↔ b₀.contains name ∨ name ∈ p.holes) ∧
        p.substitute b₁ = .ok t) ∧
    ((∃ reason, (p.matchInto t b₀).result = .error reason) ↔
      ¬∃ c, b₀ ≤ c ∧ p.substitute c = .ok t) := by
  have keeps : b₀ ≤ (p.matchInto t b₀).bindings := (p.matchInto_grows t b₀).keeps
  constructor
  · constructor
    · intro matched
      obtain ⟨passed, rfl⟩ := matched
      exact ⟨keeps, contains_matchInto_iff passed, substitute_of_matchInto passed⟩
    · intro solution
      obtain ⟨le, names, solved⟩ := solution
      have within : (p.matchInto t b₀).Within b₁ := (matchInto_within_iff p t le).2 solved
      have same : ∀ name, b₁.contains name → (p.matchInto t b₀).bindings.contains name := by
        intro name bound
        rw [contains_matchInto_iff within.1, ← names]
        exact bound
      exact ⟨within.1, Bindings.eq_of_le within.2 same⟩
  · constructor
    · intro failed solvable
      obtain ⟨reason, failed⟩ := failed
      obtain ⟨c, le, solved⟩ := solvable
      have passed := ((matchInto_within_iff p t le).2 solved).1
      rw [failed] at passed
      contradiction
    · intro unsolvable
      cases outcome : (p.matchInto t b₀).result with
      | error reason => exact ⟨reason, rfl⟩
      | ok =>
        have solved := substitute_of_matchInto outcome
        exact absurd ⟨_, keeps, solved⟩ unsolvable

end Pattern

end Sexp
