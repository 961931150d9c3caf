import Sexp.Trace

/-!
# The account that a filling gives of itself

The steps of a filling are one for each hole that it replaces, from left to right and with
repetitions, and then one for the first hole that is not bound, if there is one. So the log tells
every hole that was reached and none after it, and the trace tells the hole that stopped the
filling. A log that is written while the filling goes on is given the same lines (`watchFill_eq`).
-/

namespace Sexp

def FillStep.ofEntry (entry : String × Tree) : FillStep :=
  .replace entry.1 entry.2

theorem FillStep.filterMap_event? (entries : List (String × Tree)) :
    (entries.map ofEntry).filterMap event? = [] := by
  rw [List.filterMap_map]
  exact List.filterMap_eq_nil_iff.2 fun _ _ => rfl

namespace Filling

variable {α β : Type} {b : Bindings} {names more : List String} {f : Filling α}
  {next : α → Filling β}

def map (g : α → β) (f : Filling α) : Filling β :=
  ⟨f.result.map g, f.steps⟩

def andThen (f : Filling α) (next : α → Filling β) : Filling β :=
  match f.result with
  | .error e => ⟨.error e, f.steps⟩
  | .ok value => ⟨(next value).result, f.steps ++ (next value).steps⟩

/-- What a filling comes to for one who was told its steps, from the state `s` on. -/
def told (tell : σ → FillStep → σ) (f : Filling α) (s : σ) : Except UnboundHole α × σ :=
  (f.result, f.steps.foldl tell s)

/-- A filling of holes with the listed names tells what it put in for all of them, or for those
before the first that is not bound, and then that one. -/
inductive Accounted (b : Bindings) (names : List String) : Filling α → Prop where
  | filled (value : α) {entries : List (String × Tree)}
      (bound : ∀ entry ∈ entries, b.get? entry.1 = some entry.2)
      (all : names = entries.map Prod.fst) :
      Accounted b names ⟨.ok value, entries.map .ofEntry⟩
  | stopped (after : List String) {entries : List (String × Tree)} {name : String}
      (bound : ∀ entry ∈ entries, b.get? entry.1 = some entry.2)
      (first : names = entries.map Prod.fst ++ name :: after) (unbound : b.get? name = none) :
      Accounted b names ⟨.error ⟨name⟩, entries.map .ofEntry ++ [.unbound name]⟩

theorem Accounted.map (g : α → β) (accounted : f.Accounted b names) :
    (f.map g).Accounted b names := by
  cases accounted with
  | filled value bound all => exact .filled (g value) bound all
  | stopped after bound first unbound => exact .stopped after bound first unbound

theorem Accounted.andThen (first : f.Accounted b names)
    (later : ∀ value, (next value).Accounted b more) :
    (f.andThen next).Accounted b (names ++ more) := by
  cases first with
  | stopped after bound first unbound =>
    refine .stopped (after ++ more) bound ?_ unbound
    rw [first, List.append_assoc, List.cons_append]
  | @filled value entries bound all =>
    have rest := later value
    show Accounted b (names ++ more)
      ⟨(next value).result, entries.map .ofEntry ++ (next value).steps⟩
    generalize next value = g at rest
    -- What was put in so far goes before what the second filling tells.
    cases rest with
    | filled value' bound' all' =>
      rw [← List.map_append]
      refine .filled value' (List.forall_mem_append.2 ⟨bound, bound'⟩) ?_
      rw [all, all', List.map_append]
    | stopped after bound' first' unbound' =>
      rw [← List.append_assoc, ← List.map_append]
      refine .stopped after (List.forall_mem_append.2 ⟨bound, bound'⟩) ?_ unbound'
      rw [all, first', List.map_append, List.append_assoc]

end Filling

namespace Pattern

section Watching

variable {σ : Type} (tell : σ → FillStep → σ)

mutual

def watchFill : Pattern → Bindings → σ → Except UnboundHole Tree × σ
  | .literal tree, _, s => (.ok tree, s)
  | .hole name, b, s =>
    match b.get? name with
    | some tree => (.ok tree, tell s (.replace name tree))
    | none => (.error ⟨name⟩, tell s (.unbound name))
  | .list ps, b, s =>
    match watchFillAll ps b s with
    | (.error e, told) => (.error e, told)
    | (.ok trees, told) => (.ok (.list trees), told)

def watchFillAll : List Pattern → Bindings → σ → Except UnboundHole (List Tree) × σ
  | [], _, s => (.ok [], s)
  | p :: ps, b, s =>
    match watchFill p b s with
    | (.error e, told) => (.error e, told)
    | (.ok tree, told) =>
      match watchFillAll ps b told with
      | (.error e, told) => (.error e, told)
      | (.ok trees, told) => (.ok (tree :: trees), told)

end

end Watching

theorem fill_list (ps : List Pattern) (b : Bindings) :
    (list ps).fill b = (fillAll ps b).map .list := rfl

theorem fillAll_cons (p : Pattern) (ps : List Pattern) (b : Bindings) :
    fillAll (p :: ps) b = (p.fill b).andThen fun tree => (fillAll ps b).map (tree :: ·) := by
  rw [fillAll, Filling.andThen]
  cases (p.fill b).result <;> rfl

theorem fillHole_accounted (name : String) (b : Bindings) :
    (fillHole name b).Accounted b [name] := by
  rw [fillHole]
  cases found : b.get? name with
  | none => exact .stopped [] (List.forall_mem_nil _) rfl found
  | some tree =>
    have bound : ∀ entry ∈ [(name, tree)], b.get? entry.1 = some entry.2 :=
      List.forall_mem_singleton.2 found
    exact .filled tree bound rfl

theorem fillAll_accounted {ps : List Pattern} {b : Bindings}
    (each : ∀ p ∈ ps, (p.fill b).Accounted b p.occurrences) :
    (fillAll ps b).Accounted b (ps.flatMap occurrences) := by
  induction ps with
  | nil => exact .filled [] (List.forall_mem_nil _) rfl
  | cons p ps ih =>
    have first := each p List.mem_cons_self
    have later := ih fun q mem => each q (List.mem_cons_of_mem p mem)
    rw [fillAll_cons, List.flatMap_cons]
    exact first.andThen fun tree => later.map (tree :: ·)

theorem fill_accounted (p : Pattern) (b : Bindings) : (p.fill b).Accounted b p.occurrences := by
  induction p with
  | literal tree => exact .filled tree (List.forall_mem_nil _) rfl
  | hole name => exact fillHole_accounted name b
  | list ps each =>
    rw [fill_list, occurrences_list]
    exact (fillAll_accounted each).map Tree.list

theorem watchFillAll_eq {ps : List Pattern} {b : Bindings} (tell : σ → FillStep → σ)
    (each : ∀ p ∈ ps, ∀ s, p.watchFill tell b s = (p.fill b).told tell s) (s : σ) :
    watchFillAll tell ps b s = (fillAll ps b).told tell s := by
  induction ps generalizing s with
  | nil => rfl
  | cons p ps ih =>
    have first := each p List.mem_cons_self s
    have later := ih fun q mem => each q (List.mem_cons_of_mem p mem)
    rw [watchFillAll, first, fillAll_cons, Filling.told, Filling.andThen]
    cases (p.fill b).result with
    | error e => rfl
    | ok tree =>
      dsimp only
      rw [later, Filling.told, Filling.told, Filling.map, List.foldl_append]
      cases (fillAll ps b).result <;> rfl

/-- Watched or not, a filling comes to the same, and whoever watches it is told its steps in
order. -/
theorem watchFill_eq (tell : σ → FillStep → σ) (p : Pattern) (b : Bindings) (s : σ) :
    p.watchFill tell b s = (p.fill b).told tell s := by
  induction p generalizing s with
  | literal tree => rfl
  | hole name =>
    rw [watchFill, fill, fillHole]
    cases b.get? name <;> rfl
  | list ps each =>
    rw [watchFill, watchFillAll_eq tell each, fill_list, Filling.told, Filling.told, Filling.map]
    cases (fillAll ps b).result <;> rfl

/-- The log and the trace of a filling account for its holes. There is a line for each hole before
the first that is not bound, repetitions included, and for all holes if there is no such hole. Then
comes the one line of the unbound hole, which alone is an event too, exactly if the filling fails.
A log that is written while the filling goes on is given these lines, and does not change the
filling. -/
theorem fill_accounts_for_holes (p : Pattern) (b : Bindings) :
    let f := p.fill b
    (∀ (σ : Type) (write : σ → String → σ) (log : σ),
      p.watchFill (fun log step => write log step.line) b log =
        (p.substitute b, f.log.foldl write log)) ∧
    ∃ (replaced : List (String × Tree)) (failure : List String) (unbound : List Event),
      (∀ entry ∈ replaced, b.get? entry.1 = some entry.2) ∧
      f.log = replaced.map (fun entry => "substitute " ++ entry.1 ++ " with " ++ entry.2.text) ++
        failure ∧
      (∀ logged, f.trace logged =
        .enter (.substituting logged) ::
          (unbound.map .event ++ [.exit (.substituting logged)])) ∧
      match p.substitute b with
      | .ok _ => p.occurrences = replaced.map Prod.fst ∧ failure = [] ∧ unbound = []
      | .error ⟨name⟩ =>
        (∃ after, p.occurrences = replaced.map Prod.fst ++ name :: after) ∧ b.get? name = none ∧
          failure = [name ++ " is not bound"] ∧ unbound = [.unbound name] := by
  intro f
  constructor
  · intro σ write log
    rw [watchFill_eq, Filling.told, Filling.log, List.foldl_map]
    rfl
  · have accounted : f.Accounted b p.occurrences := fill_accounted p b
    have result : p.substitute b = f.result := rfl
    rw [result]
    clear_value f
    cases accounted with
    | @filled tree entries bound all =>
      refine ⟨entries, [], [], bound, ?_, fun logged => ?_, all, rfl, rfl⟩
      · rw [Filling.log, List.map_map, List.append_nil]
        rfl
      · rw [Filling.trace, FillStep.filterMap_event?]
        rfl
    | @stopped after entries name bound first unbound =>
      refine ⟨entries, [name ++ " is not bound"], [.unbound name], bound, ?_, fun logged => ?_,
        ⟨after, first⟩, unbound, rfl, rfl⟩
      · rw [Filling.log, List.map_append, List.map_map]
        rfl
      · rw [Filling.trace, List.filterMap_append, FillStep.filterMap_event?]
        rfl

/-- The hole `x` is told twice; what comes after the hole `y` is not told. -/
example :
    ((list [.hole "x", .list [.literal (.symbol "a"), .hole "x", .hole "y"], .hole "x"]).fill
      (.ofList [("x", .number 1)])).log =
      ["substitute x with 1", "substitute x with 1", "y is not bound"] := by
  decide

end Pattern

end Sexp
