import Mathlib.Logic.Function.Basic
import Sexp.Proofs.Matching.Obligations

/-!
# Runs over numbered bindings

A run changes any number of bindings, one at each step. The same steps are replayed on functions
that give what a name is bound to, so that neither a history nor an order of entries is left in the
outcome. Main statement: after every run the bindings hold the entries of these functions and are
equal when the functions are.
-/

namespace Sexp

abbrev Lookup := String → Option Tree

namespace Lookup

def insert (m : Lookup) (name : String) (tree : Tree) : Lookup :=
  fun other => if name = other then some tree else m other

def meet (m : Lookup) : Obligation → Option Lookup
  | .equal expected got => if expected = got then some m else none
  | .bind name tree =>
    match m name with
    | none => some (m.insert name tree)
    | some current => if current = tree then some m else none
  | .notAList => none
  | .length _ _ => none

def meetAll (m : Lookup) : List Obligation → Lookup
  | [] => m
  | o :: os =>
    match m.meet o with
    | some n => n.meetAll os
    | none => m

end Lookup

namespace Bindings

/-- A step puts new bindings into one slot; it may read others. -/
inductive Step where
  | insert (slot : Nat) (name : String) (tree : Tree)
  | extend (slot : Nat) (pairs : List (String × Tree))
  | collect (slot : Nat) (pairs : List (String × Tree))
  | restrict (slot source : Nat) (names : List String)
  | merge (slot source : Nat)
  | copy (slot source : Nat)
  | matching (slot : Nat) (p : Pattern) (t : Tree)

namespace Step

def slot : Step → Nat
  | .insert slot _ _ | .extend slot _ | .collect slot _ | .restrict slot _ _ | .merge slot _
  | .copy slot _ | .matching slot _ _ => slot

def put (store : Nat → Bindings) : Step → Bindings
  | .insert slot name tree => ((store slot).getThenInsert name tree).2
  | .extend slot pairs => (store slot).extend pairs
  | .collect _ pairs => .ofList pairs
  | .restrict _ source names => (store source).restrict names
  | .merge slot source => (store slot).merge (store source)
  | .copy _ source => store source
  | .matching slot p t => (p.matchInto t (store slot)).bindings

def perform (store : Nat → Bindings) (step : Step) : Nat → Bindings :=
  Function.update store step.slot (step.put store)

/-- What a step does to functions. Of pairs, the last that gives a name counts. -/
def effect (maps : Nat → Lookup) : Step → Lookup
  | .insert slot name tree => (maps slot).insert name tree
  | .extend slot pairs => fun name => (pairs.reverse.lookup name).or (maps slot name)
  | .collect _ pairs => fun name => pairs.reverse.lookup name
  | .restrict _ source names => fun name => if name ∈ names then maps source name else none
  | .merge slot source => fun name => (maps source name).or (maps slot name)
  | .copy _ source => maps source
  | .matching slot p t => (maps slot).meetAll (p.obligations t)

end Step

/-- The bindings in each slot after a run. All are empty at first. -/
def run (steps : List Step) : Nat → Bindings :=
  steps.foldl Step.perform fun _ => ∅

/-- The functions after a run replayed on them. -/
def replay (steps : List Step) : Nat → Lookup :=
  steps.foldl (fun maps step => Function.update maps step.slot (step.effect maps)) fun _ _ => none

/-- The bindings hold the entries of the function, each name once. -/
structure Represents (b : Bindings) (m : Lookup) : Prop where
  get? : ∀ name, b.get? name = m name
  contains : ∀ name, b.contains name = (m name).isSome
  size : ∃ names : List String, names.Nodup ∧ (∀ name, name ∈ names ↔ (m name).isSome) ∧
    b.size = names.length
  isEmpty : b.isEmpty = true ↔ ∀ name, m name = none

variable {b c : Bindings} {name : String} {tree : Tree} {names others : List String}
  {visited : List (String × Tree)}

theorem get?_insert_eq (b : Bindings) (name : String) (tree : Tree) :
    (b.insert name tree).get? = Lookup.insert b.get? name tree := by
  funext other
  exact get?_insert b name other tree

theorem get?_meet (o : Obligation) (b : Bindings) :
    (o.meet b).toOption.map get? = Lookup.meet b.get? o := by
  cases o with
  | equal expected got =>
    rw [Obligation.meet, Lookup.meet]
    split <;> rfl
  | bind name tree =>
    rw [Obligation.meet, Lookup.meet]
    cases b.get? name with
    | none => exact congrArg some (get?_insert_eq b name tree)
    | some current =>
      dsimp only
      split <;> rfl
  | notAList => rfl
  | length => rfl

theorem get?_meetAll (os : List Obligation) (b : Bindings) :
    (Obligation.meetAll os b).2.get? = Lookup.meetAll b.get? os := by
  induction os generalizing b with
  | nil => rfl
  | cons o os ih =>
    have one := get?_meet o b
    cases met : o.meet b with
    | error reason =>
      rw [met] at one
      rw [Obligation.meetAll_cons_of_error met, Lookup.meetAll, ← one]
      rfl
    | ok c =>
      rw [met] at one
      rw [Obligation.meetAll_cons_of_ok met, Lookup.meetAll, ← one, ih]
      rfl

theorem get?_put (store : Nat → Bindings) (step : Step) :
    (step.put store).get? = step.effect (get? ∘ store) := by
  funext name
  cases step with
  | insert slot other tree => exact get?_insert (store slot) other name tree
  | extend slot pairs => exact get?_extend (store slot) pairs name
  | collect slot pairs => simp [Step.put, Step.effect, ofList, get?_extend]
  | restrict slot source names => exact get?_restrict (store source) names name
  | merge slot source => exact get?_merge (store slot) (store source) name
  | copy slot source => rfl
  | matching slot p t =>
    have met : (p.matchInto t (store slot)).bindings =
        (Obligation.meetAll (p.obligations t) (store slot)).2 :=
      congrArg Prod.snd (Pattern.outcome_matchInto p t (store slot))
    rw [Step.put, met, get?_meetAll]
    rfl

theorem get?_perform (store : Nat → Bindings) (step : Step) :
    get? ∘ step.perform store =
      Function.update (get? ∘ store) step.slot (step.effect (get? ∘ store)) := by
  rw [Step.perform, Function.comp_update, get?_put]

theorem get?_run (steps : List Step) : get? ∘ run steps = replay steps := by
  have start : get? ∘ (fun _ : Nat => (∅ : Bindings)) = fun _ _ => none := by
    funext slot name
    exact get?_empty name
  rw [run, replay, ← start]
  exact (List.foldl_hom (get? ∘ ·) fun store step => (get?_perform store step).symm).symm

theorem represents_get? (b : Bindings) : b.Represents b.get? := by
  have names (name : String) : name ∈ b.entries.keys ↔ (b.get? name).isSome := by
    rw [Std.ExtTreeMap.mem_keys, ← contains_eq]
    rfl
  refine ⟨fun _ => rfl, contains_eq b, ⟨b.entries.keys, ?_, names, ?_⟩, ?_⟩
  · exact Std.ExtTreeMap.nodup_keys
  · exact Std.ExtTreeMap.length_keys.symm
  · constructor
    · intro empty name
      obtain ⟨entries⟩ := b
      obtain rfl : entries = ∅ := Std.ExtTreeMap.isEmpty_iff.1 empty
      exact get?_empty name
    · intro unbound
      obtain rfl : b = ∅ := ext_get? fun name => by rw [unbound, get?_empty]
      rfl

theorem extend_eq_merge_of_perm (perm : visited.Perm c.toList) : b.extend visited = b.merge c := by
  ext name : 1
  rw [get?_merge, get?_extend_of_entries fun _ _ => perm.mem_iff.trans mem_toList]

theorem restrict_congr (same : ∀ name, (b.get? name).isSome → (name ∈ names ↔ name ∈ others)) :
    b.restrict names = b.restrict others := by
  ext name : 1
  rw [get?_restrict, get?_restrict]
  cases found : b.get? name with
  | none => simp
  | some tree => simp only [same name (by simp [found])]

/-- Whatever has been done to them, the bindings in each slot hold the entries that the replay
gives, and they are equal to those in another slot when every name is bound alike. Binding a name
answers what it was bound to. Entries may be merged in any order, a restriction depends only on
which bound names are listed, and a step leaves all slots but its own as they were. -/
theorem run_represents (steps : List Step) :
    let store := run steps
    let maps := replay steps
    (∀ slot, (store slot).Represents (maps slot)) ∧
    (∀ slot other, (store slot == store other) = true ↔
      ∀ name, (store slot).get? name = (store other).get? name) ∧
    (∀ slot name tree, ((store slot).getThenInsert name tree).1 = maps slot name) ∧
    (∀ slot source visited, visited.Perm (store source).toList →
      (store slot).extend visited = (store slot).merge (store source)) ∧
    (∀ source names others,
      (∀ name, (maps source name).isSome → (name ∈ names ↔ name ∈ others)) →
      (store source).restrict names = (store source).restrict others) ∧
    ∀ (step : Step) slot, slot ≠ step.slot → step.perform store slot = store slot := by
  intro store maps
  have same (slot : Nat) : (store slot).get? = maps slot := congrFun (get?_run steps) slot
  refine ⟨fun slot => ?_, fun slot other => ?_, fun slot name tree => ?_, ?_, ?_, ?_⟩
  · exact same slot ▸ represents_get? (store slot)
  · rw [beq_iff_eq]
    exact ⟨fun equal name => by rw [equal], ext_get?⟩
  · exact congrFun (same slot) name
  · exact fun slot source visited => extend_eq_merge_of_perm
  · intro source names others listed
    rw [← same] at listed
    exact restrict_congr listed
  · exact fun step slot other => Function.update_of_ne other _ _

end Bindings

end Sexp
