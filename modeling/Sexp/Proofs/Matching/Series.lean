import Mathlib.Order.Bounds.Defs
import Sexp.Proofs.Matching.Obligations
import Sexp.Proofs.Matching.Solution

/-!
# Matches one after another

Matches made in turn on the same bindings all succeed exactly when their problems have a common
solution above the bindings they start from, and they leave the least one (`matchEach_isLeast_iff`).
Which hole binds and which only compares depends on the order, the set of common solutions does not.
Whether they succeed or fail, the first match that binds a name settles it. What a match adds is
bound at a hole of its pattern, to a part of the tree it was given. Whether it is logged makes no
difference, since its log is read off it.
-/

namespace Sexp

def Match.Leaves (c : Bindings) (m : Match) : Prop :=
  m.result = .ok () ∧ m.bindings = c

namespace Pattern

/-- The matches made in turn, each on the bindings that the one before left, failed or not. -/
def matchEach : List (Pattern × Tree) → Bindings → List Match
  | [], _ => []
  | (p, t) :: problems, b =>
    let m := p.matchInto t b
    m :: matchEach problems m.bindings

def afterEach : List (Pattern × Tree) → Bindings → Bindings
  | [], b => b
  | (p, t) :: problems, b => afterEach problems (p.matchInto t b).bindings

/-- The extensions of `b` with which every pattern becomes its tree. -/
def commonSolutions (problems : List (Pattern × Tree)) (b : Bindings) : Set Bindings :=
  {c | b ≤ c ∧ ∀ problem ∈ problems, problem.1.substitute c = .ok problem.2}

variable {problems others : List (Pattern × Tree)} {b c : Bindings}

theorem afterEach_append (done later : List (Pattern × Tree)) (b : Bindings) :
    afterEach (done ++ later) b = afterEach later (afterEach done b) := by
  induction done generalizing b with
  | nil => rfl
  | cons problem done ih => exact ih _

theorem matchEach_append (done later : List (Pattern × Tree)) (b : Bindings) :
    matchEach (done ++ later) b = matchEach done b ++ matchEach later (afterEach done b) := by
  induction done generalizing b with
  | nil => rfl
  | cons problem done ih => exact congrArg (_ :: ·) (ih _)

theorem length_matchEach (problems : List (Pattern × Tree)) (b : Bindings) :
    (matchEach problems b).length = problems.length := by
  induction problems generalizing b with
  | nil => rfl
  | cons problem problems ih => exact congrArg (· + 1) (ih _)

theorem le_afterEach (problems : List (Pattern × Tree)) (b : Bindings) :
    b ≤ afterEach problems b := by
  induction problems generalizing b with
  | nil => exact le_refl b
  | cons problem problems ih =>
    have first : b ≤ (problem.1.matchInto problem.2 b).bindings :=
      (problem.1.matchInto_grows problem.2 b).keeps
    exact le_trans first (ih _)

/-- Above the bindings that matches start from, they succeed within exactly the common
solutions. -/
theorem matchEach_within_iff (le : b ≤ c) :
    (∀ m ∈ matchEach problems b, m.result = .ok ()) ∧ afterEach problems b ≤ c ↔
      ∀ problem ∈ problems, problem.1.substitute c = .ok problem.2 := by
  induction problems generalizing b with
  | nil => simp [matchEach, afterEach, le]
  | cons problem problems ih =>
    obtain ⟨p, t⟩ := problem
    have one : (p.matchInto t b).Within c ↔ p.substitute c = .ok t := matchInto_within_iff p t le
    rw [matchEach, afterEach, List.forall_mem_cons, List.forall_mem_cons]
    constructor
    · intro within
      obtain ⟨⟨passed, later⟩, below⟩ := within
      -- Later matches drop nothing, so what this one leaves lies below `c` too.
      have first : (p.matchInto t b).bindings ≤ c := le_trans (le_afterEach problems _) below
      exact ⟨one.1 ⟨passed, first⟩, (ih first).1 ⟨later, below⟩⟩
    · intro solution
      obtain ⟨passed, first⟩ := one.2 solution.1
      obtain ⟨later, below⟩ := (ih first).2 solution.2
      exact ⟨⟨passed, later⟩, below⟩

theorem matchEach_isLeast_iff :
    (∀ m ∈ matchEach problems b, m.result = .ok ()) ∧ afterEach problems b = c ↔
      IsLeast (commonSolutions problems b) c := by
  constructor
  · intro matched
    obtain ⟨passed, rfl⟩ := matched
    have above : b ≤ afterEach problems b := le_afterEach problems b
    refine ⟨⟨above, (matchEach_within_iff above).1 ⟨passed, le_refl _⟩⟩, ?_⟩
    intro d solution
    exact ((matchEach_within_iff solution.1).2 solution.2).2
  · intro least
    obtain ⟨⟨above, solution⟩, lower⟩ := least
    obtain ⟨passed, below⟩ := (matchEach_within_iff above).2 solution
    have kept : b ≤ afterEach problems b := le_afterEach problems b
    have solved := (matchEach_within_iff kept).1 ⟨passed, le_refl _⟩
    exact ⟨passed, le_antisymm below (lower ⟨kept, solved⟩)⟩

theorem matchAllInto_leaves_iff :
    (matchAllInto (problems.map Prod.fst) (problems.map Prod.snd) b).Leaves c ↔
      (∀ m ∈ matchEach problems b, m.result = .ok ()) ∧ afterEach problems b = c := by
  induction problems generalizing b with
  | nil => simp [matchAllInto, Match.pass, Match.Leaves, matchEach, afterEach]
  | cons problem problems ih =>
    obtain ⟨p, t⟩ := problem
    rw [List.map_cons, List.map_cons, matchAllInto, matchEach, afterEach, List.forall_mem_cons]
    cases passed : (p.matchInto t b).result with
    | error reason =>
      rw [Match.andThen_of_error passed]
      simp [Match.Leaves, passed]
    | ok =>
      rw [Match.andThen_of_ok passed, and_assoc, ← ih]
      simp [Match.Leaves]

theorem matchInto_list_leaves_iff :
    ((list (problems.map Prod.fst)).matchInto (.list (problems.map Prod.snd)) b).Leaves c ↔
      IsLeast (commonSolutions problems b) c := by
  have same : (problems.map Prod.fst).length = (problems.map Prod.snd).length := by
    rw [List.length_map, List.length_map]
  rw [matchInto_list_list, if_pos same, matchAllInto_leaves_iff, matchEach_isLeast_iff]

theorem commonSolutions_perm (perm : problems.Perm others) (b : Bindings) :
    commonSolutions problems b = commonSolutions others b := by
  simp only [commonSolutions, perm.mem_iff]

/-- Matches that all succeed do so in every order, and leave the same bindings; so does a list
pattern whose elements are permuted together with those of its list. -/
theorem matchEach_perm {problems others : List (Pattern × Tree)} (perm : problems.Perm others)
    (b c : Bindings) :
    ((∀ m ∈ matchEach problems b, m.result = .ok ()) ∧ afterEach problems b = c ↔
      (∀ m ∈ matchEach others b, m.result = .ok ()) ∧ afterEach others b = c) ∧
    (((list (problems.map Prod.fst)).matchInto (.list (problems.map Prod.snd)) b).Leaves c ↔
      ((list (others.map Prod.fst)).matchInto (.list (others.map Prod.snd)) b).Leaves c) := by
  have same : commonSolutions problems b = commonSolutions others b := commonSolutions_perm perm b
  constructor
  · rw [matchEach_isLeast_iff, matchEach_isLeast_iff, same]
  · rw [matchInto_list_leaves_iff, matchInto_list_leaves_iff, same]

/-- A hole that two problems share is bound by whichever comes first. -/
theorem matchEach_perm_shared_hole :
    let one : Pattern × Tree := (.hole "x", .number 1)
    let two : Pattern × Tree := (.list [.hole "y", .hole "x"], .list [.invalid, .number 1])
    let b : Bindings := .ofList [("z", .symbol "x")]
    let c : Bindings := .ofList [("x", .number 1), ("y", .invalid), ("z", .symbol "x")]
    [one, two].Perm [two, one] ∧
      (∀ m ∈ matchEach [one, two] b, m.result = .ok ()) ∧ afterEach [one, two] b = c ∧
      (∀ m ∈ matchEach [two, one] b, m.result = .ok ()) ∧ afterEach [two, one] b = c ∧
      ((list [two.1, one.1]).matchInto (.list [two.2, one.2]) b).Leaves c := by
  intro one two b c
  have swapped : [one, two].Perm [two, one] := .swap two one []
  have passed : ∀ m ∈ matchEach [one, two] b, m.result = .ok () := by
    simp only [matchEach, List.forall_mem_cons]
    exact ⟨rfl, rfl, nofun⟩
  have left : afterEach [one, two] b = c := by decide
  obtain ⟨inTurn, asLists⟩ := matchEach_perm swapped b c
  obtain ⟨passed', left'⟩ := inTurn.1 ⟨passed, left⟩
  have asList := asLists.1 (matchAllInto_leaves_iff.2 ⟨passed, left⟩)
  exact ⟨swapped, passed, left, passed', left', asList⟩

end Pattern

/-! ## What matches leave bound -/

/-- The tree `u` is the whole of another, or an element of a list at some depth in it. -/
inductive Tree.Part (u : Tree) : Tree → Prop where
  | whole : Part u u
  | element {t : Tree} {ts : List Tree} : t ∈ ts → Part u t → Part u (.list ts)

namespace Obligation

variable {o : Obligation} {os : List Obligation} {b c : Bindings} {name : String} {u : Tree}

theorem eq_bind_of_meet (met : o.meet b = .ok c) (found : c.get? name = some u) :
    b.get? name = some u ∨ o = .bind name u := by
  cases o with
  | equal expected got =>
    rw [meet] at met
    split at met <;> cases met
    exact .inl found
  | bind other tree =>
    rw [meet] at met
    split at met
    next =>
      cases met
      rw [Bindings.get?_insert] at found
      split at found
      next same =>
        cases found
        exact .inr (by rw [same])
      next => exact .inl found
    next =>
      split at met <;> cases met
      exact .inl found
  | notAList | length => cases met

theorem bind_mem_of_meetAll (found : (meetAll os b).2.get? name = some u) :
    b.get? name = some u ∨ .bind name u ∈ os := by
  induction os generalizing b with
  | nil => exact .inl found
  | cons o os ih =>
    cases met : o.meet b with
    | error reason =>
      rw [meetAll_cons_of_error met] at found
      exact .inl found
    | ok c =>
      rw [meetAll_cons_of_ok met] at found
      rcases ih found with here | later
      · refine (eq_bind_of_meet met here).imp_right fun same => ?_
        exact same ▸ List.mem_cons_self
      · exact .inr (List.mem_cons_of_mem o later)

end Obligation

namespace Pattern

variable {p : Pattern} {t u : Tree} {b : Bindings} {name : String}

theorem exists_of_mem_obligationsAll {o : Obligation} {ps : List Pattern} {ts : List Tree}
    (mem : o ∈ obligationsAll ps ts) : ∃ p ∈ ps, ∃ t ∈ ts, o ∈ p.obligations t := by
  induction ps generalizing ts with
  | nil => simp [obligationsAll] at mem
  | cons p ps ih =>
    cases ts with
    | nil => simp [obligationsAll] at mem
    | cons t ts =>
      rw [obligationsAll, List.mem_append] at mem
      rcases mem with first | later
      · exact ⟨p, List.mem_cons_self, t, List.mem_cons_self, first⟩
      · obtain ⟨q, inside, u, element, found⟩ := ih later
        exact ⟨q, List.mem_cons_of_mem p inside, u, List.mem_cons_of_mem t element, found⟩

theorem part_of_mem_obligations (mem : .bind name u ∈ p.obligations t) :
    name ∈ p.occurrences ∧ u.Part t := by
  induction p generalizing t with
  | literal e => simp [obligations] at mem
  | hole other =>
    obtain ⟨rfl, rfl⟩ : name = other ∧ u = t := by simpa [obligations] using mem
    exact ⟨List.mem_singleton_self name, .whole⟩
  | list ps each =>
    cases t with
    | invalid | symbol | number => simp [obligations] at mem
    | list ts =>
      rw [obligations_list_list] at mem
      split at mem
      next =>
        obtain ⟨p, inside, t, element, found⟩ := exists_of_mem_obligationsAll mem
        obtain ⟨hole, part⟩ := each p inside found
        exact ⟨mem_occurrences_list inside hole, .element element part⟩
      next => simp at mem

theorem get?_matchInto_cases (found : (p.matchInto t b).bindings.get? name = some u) :
    b.get? name = some u ∨ b.get? name = none ∧ name ∈ p.holes ∧ u.Part t := by
  cases before : b.get? name with
  | some v =>
    have kept := Bindings.get?_of_le (p.matchInto_grows t b).keeps before
    exact .inl (kept.symm.trans found)
  | none =>
    have outcome : (p.matchInto t b).bindings = (Obligation.meetAll (p.obligations t) b).2 :=
      congrArg Prod.snd (outcome_matchInto p t b)
    rw [outcome] at found
    rcases Obligation.bind_mem_of_meetAll found with same | asked
    · rw [before] at same
      contradiction
    · obtain ⟨hole, part⟩ := part_of_mem_obligations asked
      exact .inr ⟨rfl, mem_holes.2 hole, part⟩

theorem get?_matchInto_of_not_mem (other : name ∉ p.holes) :
    (p.matchInto t b).bindings.get? name = b.get? name := by
  cases before : b.get? name with
  | some v => exact Bindings.get?_of_le (p.matchInto_grows t b).keeps before
  | none =>
    cases found : (p.matchInto t b).bindings.get? name with
    | none => rfl
    | some u =>
      rcases get?_matchInto_cases found with same | ⟨-, hole, -⟩
      · rw [before] at same
        contradiction
      · contradiction

theorem get?_afterEach_of_not_mem {problems : List (Pattern × Tree)}
    (others : ∀ problem ∈ problems, name ∉ problem.1.holes) :
    (afterEach problems b).get? name = b.get? name := by
  induction problems generalizing b with
  | nil => rfl
  | cons problem problems ih =>
    rw [List.forall_mem_cons] at others
    rw [afterEach, ih others.2, get?_matchInto_of_not_mem others.1]

/-- The first write wins. At any point of a run of matches on the same bindings, failed ones
included, all earlier entries are still there, and what the match made then leaves is still there
after all later ones. It adds entries only at unbound holes of its pattern, each of them a part of
its tree; names that are holes of no pattern in the run are never touched. -/
theorem matchEach_persists (b₀ : Bindings) (done later : List (Pattern × Tree)) (p : Pattern)
    (t : Tree) :
    let run := done ++ (p, t) :: later
    let before := afterEach done b₀
    let m := p.matchInto t before
    (matchEach run b₀)[done.length]? = some m ∧
    b₀ ≤ before ∧ before ≤ m.bindings ∧ m.bindings ≤ afterEach run b₀ ∧
    (∀ name u, m.bindings.get? name = some u →
      before.get? name = some u ∨ before.get? name = none ∧ name ∈ p.holes ∧ u.Part t) ∧
    ∀ name, (∀ problem ∈ run, name ∉ problem.1.holes) →
      (afterEach run b₀).get? name = b₀.get? name := by
  intro run before m
  have made : (matchEach run b₀)[done.length]? = some m := by
    rw [matchEach_append, List.getElem?_append_right (Nat.le_of_eq (length_matchEach done b₀)),
      length_matchEach, Nat.sub_self]
    rfl
  have stays : m.bindings ≤ afterEach run b₀ := by
    rw [afterEach_append]
    exact le_afterEach later m.bindings
  exact ⟨made, le_afterEach done b₀, (p.matchInto_grows t before).keeps, stays,
    fun name u => get?_matchInto_cases, fun name => get?_afterEach_of_not_mem⟩

end Pattern

end Sexp
