import Mathlib.Data.List.Basic
import Sexp.Proofs.Matching.Solution
import Sexp.Trace

/-!
# The account that a match gives of itself

A match can be watched while it goes on: each step is told when it is taken, to a log or to whoever
else keeps a state of its own. Watching changes nothing about the match, and what is told is its
steps in order (`watch_eq`). These are one step for each name it binds, in the order of the holes,
and then one for the failure, if it fails. So the log and the trace tell what was bound, once each
and with nothing left out, and whether and how the match failed.
-/

namespace Sexp

/-! ## Matches that are watched -/

section Watching

variable {σ : Type} (tell : σ → MatchStep → σ)

namespace Pattern

mutual

/-- Matches one tree, telling each step when it is taken. -/
def watch : Pattern → Tree → Bindings → σ → Except Mismatch Unit × Bindings × σ
  | .literal expected, candidate, b, s =>
    if expected = candidate then (.ok (), b, s)
    else (.error (.differs expected candidate), b, tell s (.differ expected candidate))
  | .hole name, candidate, b, s =>
    match b.get? name with
    | none => (.ok (), b.insert name candidate, tell s (.bind name candidate))
    | some current =>
      if current = candidate then (.ok (), b, s)
      else (.error (.rebinds name current), b, tell s (.conflict name current candidate))
  | .list ps, .list ts, b, s =>
    if ps.length = ts.length then watchAll ps ts b s
    else (.error (.length ps.length ts.length), b, tell s (.length ps.length ts))
  | .list _, candidate, b, s => (.error .notAList, b, tell s (.notAList candidate))

def watchAll : List Pattern → List Tree → Bindings → σ → Except Mismatch Unit × Bindings × σ
  | p :: ps, t :: ts, b, s =>
    match watch p t b s with
    | (.error reason, c, told) => (.error reason, c, told)
    | (.ok (), c, told) => watchAll ps ts c told
  | _, _, b, s => (.ok (), b, s)

end

end Pattern

/-- What a match comes to for one who was told its steps, from the state `s` on. -/
def Match.told (m : Match) (s : σ) : Except Mismatch Unit × Bindings × σ :=
  (m.result, m.bindings, m.steps.foldl tell s)

namespace Pattern

theorem watch_hole (name : String) (t : Tree) (b : Bindings) (s : σ) :
    (hole name).watch tell t b s = (matchHole name t b).told tell s := by
  rw [watch]
  cases found : b.get? name with
  | none =>
    rw [matchHole_of_unbound found]
    rfl
  | some current =>
    rw [matchHole_of_bound found]
    dsimp only
    split <;> rfl

theorem watch_eq (p : Pattern) (t : Tree) (b : Bindings) (s : σ) :
    p.watch tell t b s = (p.matchInto t b).told tell s := by
  revert b s
  apply matchInto_induction (fun p t f => ∀ b s, p.watch tell t b s = (f b).told tell s)
    (fun ps ts f => ∀ b s, watchAll tell ps ts b s = (f b).told tell s)
  case equal => intro e b s; rw [watch, if_pos rfl]; rfl
  case differ => intro e t differ b s; rw [watch, if_neg differ]; rfl
  case hole => exact watch_hole tell
  case atom =>
    intro ps t atom b s
    cases t with
    | invalid | symbol | number => rfl
    | list ts => exact absurd rfl (atom ts)
  case length => intro ps ts differ b s; rw [watch, if_neg differ]; rfl
  case list => intro ps ts same elements b s; rw [watch, if_pos same, elements]
  case nil => intro b s; rfl
  case cons =>
    intro p ps t ts first later b s
    show watchAll tell (p :: ps) (t :: ts) b s =
      ((p.matchInto t b).andThen (matchAllInto ps ts)).told tell s
    rw [watchAll, first, Match.told]
    cases outcome : (p.matchInto t b).result with
    | error reason => rw [Match.andThen_of_error outcome, Match.told, outcome]
    | ok =>
      rw [Match.andThen_of_ok outcome, Match.told, List.foldl_append]
      exact later _ _

end Pattern

end Watching

/-! ## What the steps tell -/

namespace Bindings

/-- The entries of `c` at those of the listed names that `b` does not bind, in their order. -/
def newEntries (names : List String) (b c : Bindings) : List (String × Tree) :=
  (names.filter (!b.contains ·)).filterMap fun name => (c.get? name).map (name, ·)

variable {names ns : List String} {b c d : Bindings}

theorem newEntries_append (ns ms : List String) (b c : Bindings) :
    newEntries (ns ++ ms) b c = newEntries ns b c ++ newEntries ms b c := by
  rw [newEntries, List.filter_append, List.filterMap_append, newEntries, newEntries]

theorem newEntries_eq_nil (old : ∀ name ∈ names, c.contains name → b.contains name) :
    newEntries names b c = [] := by
  apply List.filterMap_eq_nil_iff.2
  intro name mem
  obtain ⟨listed, unbound⟩ := List.mem_filter.1 mem
  cases found : c.get? name with
  | none => rfl
  | some tree =>
    have bound : b.contains name := old name listed (by rw [contains_eq, found]; rfl)
    rw [bound] at unbound
    contradiction

theorem newEntries_congr (same : ∀ name ∈ names, c.get? name = d.get? name) :
    newEntries names b c = newEntries names b d := by
  apply List.filterMap_congr
  intro name mem
  rw [same name (List.mem_filter.1 mem).1]

theorem newEntries_eraseDups_append_right
    (names : ∀ name, c.contains name → b.contains name ∨ name ∈ ns) (ms : List String) :
    newEntries (ns ++ ms).eraseDups b c = newEntries ns.eraseDups b c := by
  have none : newEntries (ms.removeAll ns).eraseDups b c = [] := by
    apply newEntries_eq_nil
    intro name mem bound
    have outside := (List.mem_filter.1 (List.mem_eraseDups.1 mem)).2
    exact (names name bound).resolve_right (by simpa using outside)
  rw [List.eraseDups_append, newEntries_append, none, List.append_nil]

/-- What is new after two steps on the way, the first of which binds all its names: the names of the
second count where they are not bound by then. -/
theorem newEntries_eraseDups_append (below : b ≤ d) (above : d ≤ c)
    (names : ∀ name, d.contains name → b.contains name ∨ name ∈ ns)
    (all : ∀ name ∈ ns, d.contains name) (ms : List String) :
    newEntries (ns ++ ms).eraseDups b c =
      newEntries ns.eraseDups b d ++ newEntries ms.eraseDups d c := by
  have first : newEntries ns.eraseDups b c = newEntries ns.eraseDups b d := by
    apply newEntries_congr
    intro name mem
    have bound : d.contains name := all name (List.mem_eraseDups.1 mem)
    rw [contains_eq, Option.isSome_iff_exists] at bound
    obtain ⟨tree, found⟩ := bound
    rw [found, get?_of_le above found]
  have later : (ms.removeAll ns).filter (!b.contains ·) = ms.filter (!d.contains ·) := by
    rw [List.removeAll, List.filter_filter]
    apply List.filter_congr
    intro name _
    have known : d.contains name = (b.contains name || ns.elem name) := by
      rw [Bool.eq_iff_iff, Bool.or_eq_true, List.elem_iff]
      exact ⟨names name, fun bound => bound.elim (contains_of_le below) (all name)⟩
    rw [known, Bool.not_or]
  rw [List.eraseDups_append, newEntries_append, first, newEntries, newEntries, newEntries,
    Pattern.filter_eraseDups, Pattern.filter_eraseDups, Pattern.filter_eraseDups, later]

end Bindings

/-- The steps after the last name is bound: none if the match succeeds, else the failure. -/
inductive MatchStep.Ends : Except Mismatch Unit → List MatchStep → Prop where
  | passed : Ends (.ok ()) []
  | conflict : Ends (.error (.rebinds name current)) [.conflict name current candidate]
  | differ : Ends (.error (.differs expected candidate)) [.differ expected candidate]
  | notAList : Ends (.error .notAList) [.notAList candidate]
  | length : Ends (.error (.length expected candidates.length)) [.length expected candidates]

def MatchStep.ofEntry (entry : String × Tree) : MatchStep :=
  .bind entry.1 entry.2

namespace Match

open MatchStep Bindings

variable {b : Bindings} {m : Match} {next : Bindings → Match} {names more : List String}

/-- A match at holes of the listed names, from the bindings `b`, tells what it bound and how it
ended. -/
structure Accounted (b : Bindings) (names : List String) (m : Match) : Prop where
  grows : m.Grows b names
  complete : m.result = .ok () → ∀ name ∈ names, m.bindings.contains name
  steps : ∃ last, Ends m.result last ∧
    m.steps = (newEntries names.eraseDups b m.bindings).map ofEntry ++ last

theorem Accounted.of_same (same : m.bindings = b)
    (complete : m.result = .ok () → ∀ name ∈ names, b.contains name)
    (ends : Ends m.result m.steps) : m.Accounted b names := by
  have none : newEntries names.eraseDups b m.bindings = [] := by
    apply newEntries_eq_nil
    intro name _ bound
    rw [← same]
    exact bound
  refine ⟨.refl same, same ▸ complete, m.steps, ends, ?_⟩
  rw [none]
  rfl

theorem Accounted.andThen (first : m.Accounted b names)
    (later : (next m.bindings).Accounted m.bindings more) :
    (m.andThen next).Accounted b (names ++ more) := by
  have grows : (m.andThen next).Grows b (names ++ more) := first.grows.andThen later.grows
  obtain ⟨last, ends, steps⟩ := first.steps
  cases outcome : m.result with
  | error reason =>
    rw [outcome] at ends
    rw [andThen_of_error outcome] at grows ⊢
    refine ⟨grows, fun passed => ?_, last, outcome ▸ ends, ?_⟩
    · rw [outcome] at passed
      contradiction
    · rw [newEntries_eraseDups_append_right first.grows.names]
      exact steps
  | ok =>
    -- The first match has no failure to tell, so the steps of the two are told without a break.
    rw [outcome] at ends
    cases ends
    obtain ⟨last, ends, rest⟩ := later.steps
    rw [andThen_of_ok outcome] at grows ⊢
    refine ⟨grows, fun passed name mem => ?_, last, ends, ?_⟩
    · rcases List.mem_append.1 mem with earlier | new
      · exact contains_of_le later.grows.keeps (first.complete outcome name earlier)
      · exact later.complete passed name new
    · have entries := newEntries_eraseDups_append first.grows.keeps later.grows.keeps
        first.grows.names (first.complete outcome) more
      rw [steps, rest, entries, List.map_append, List.append_nil, List.append_assoc]

end Match

namespace Pattern

open MatchStep Bindings

theorem matchHole_accounted (name : String) (t : Tree) (b : Bindings) :
    (matchHole name t b).Accounted b [name] := by
  cases found : b.get? name with
  | none =>
    have grows := matchHole_grows name t b
    rw [matchHole_of_unbound found] at grows ⊢
    refine ⟨grows, fun _ other mem => ?_, [], .passed, ?_⟩
    · obtain rfl := List.mem_singleton.1 mem
      simp
    · have one : newEntries [name] b (b.insert name t) = [(name, t)] := by simp [newEntries, found]
      rw [show [name].eraseDups = [name] from rfl, one]
      rfl
  | some current =>
    have bound : ∀ other ∈ [name], b.contains other := by simp [found]
    rw [matchHole_of_bound found]
    split
    · exact .of_same rfl (fun _ => bound) .passed
    · exact .of_same rfl (fun _ => bound) .conflict

theorem matchInto_accounted (p : Pattern) (t : Tree) (b : Bindings) :
    (p.matchInto t b).Accounted b p.occurrences := by
  revert b
  apply matchInto_induction (fun p _ f => ∀ b, (f b).Accounted b p.occurrences)
    (fun ps _ f => ∀ b, (f b).Accounted b (ps.flatMap occurrences))
  case equal => exact fun _ _ => .of_same rfl (fun _ => nofun) .passed
  case differ => exact fun _ _ _ _ => .of_same rfl nofun .differ
  case hole => exact matchHole_accounted
  case atom => exact fun _ _ _ _ => .of_same rfl nofun .notAList
  case length => exact fun _ _ _ _ => .of_same rfl nofun .length
  case list => exact fun ps _ _ elements => occurrences_list ps ▸ elements
  case nil => exact fun _ => .of_same rfl (fun _ => nofun) .passed
  case cons =>
    intro p ps t ts first later b
    rw [List.flatMap_cons]
    exact (first b).andThen (later _)

theorem failure_of_ends {result : Except Mismatch Unit} {last : List MatchStep} :
    Ends result last →
      match result with
      | .ok () => last.map line = [] ∧ last.filterMap event? = []
      | .error (.rebinds name current) =>
        ∃ candidate, last.map line = [(conflict name current candidate).line] ∧
          last.filterMap event? = [.conflict name current candidate]
      | .error _ => ∃ text, last.map line = [text] ∧ last.filterMap event? = [] := by
  intro ends
  cases ends with
  | passed => exact ⟨rfl, rfl⟩
  | conflict | differ | notAList | length => exact ⟨_, rfl, rfl⟩

/-- The log and the trace of a match account for its effect. There is a line and an event for each
name of a hole that was not bound before and is bound after, in the order of the holes, and then one
line more if the match fails, which is an event only if the failure is a name bound to another tree.
A log that is written while the match goes on is given these lines and does not change the match. -/
theorem match_accounts_for_effect (p : Pattern) (t : Tree) (b₀ : Bindings) :
    let m := p.matchInto t b₀
    let new := newEntries p.holes b₀ m.bindings
    (∀ (σ : Type) (write : σ → String → σ) (log : σ),
      p.watch (fun log step => write log step.line) t b₀ log =
        (m.result, m.bindings, m.log.foldl write log)) ∧
    ∃ (failure : List String) (conflict : List Event),
      m.log = new.map (fun entry => "bind " ++ entry.1 ++ " to " ++ entry.2.text) ++ failure ∧
      (∀ logged, m.trace logged =
        .enter (.matching logged) ::
          ((new.map (fun entry => Event.bind entry.1 entry.2) ++ conflict).map .event ++
            [.exit (.matching logged)])) ∧
      match m.result with
      | .ok () => failure = [] ∧ conflict = []
      | .error (.rebinds name current) =>
        ∃ candidate, failure = [(MatchStep.conflict name current candidate).line] ∧
          conflict = [.conflict name current candidate]
      | .error _ => ∃ text, failure = [text] ∧ conflict = [] := by
  intro m new
  obtain ⟨last, ends, steps⟩ : ∃ last, Ends m.result last ∧ m.steps = new.map ofEntry ++ last :=
    (matchInto_accounted p t b₀).steps
  refine ⟨?_, last.map line, last.filterMap event?, ?_, ?_, failure_of_ends ends⟩
  · intro σ write log
    rw [watch_eq, Match.told, Match.log, List.foldl_map]
  · rw [Match.log, steps, List.map_append, List.map_map]
    rfl
  · intro logged
    have events : (new.map ofEntry).filterMap event? =
        new.map fun entry => Event.bind entry.1 entry.2 := by
      rw [List.filterMap_map]
      exact congrFun List.filterMap_eq_map new
    rw [Match.trace, Span.around, steps, List.filterMap_append, events]

/-- The name `x` is bound before, and `y` is bound once for two holes. -/
example :
    ((list [.hole "x", .hole "y", .hole "y", .list []]).matchInto
      (.list [.number 1, .list [], .list [], .symbol "a"]) (.ofList [("x", .number 1)])).log =
      ["bind y to ()", "symbol a cannot match a list"] := by
  decide

end Pattern

end Sexp
