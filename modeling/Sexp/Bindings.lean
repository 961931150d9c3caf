import Std.Data.ExtTreeMap
import Sexp.Tree

/-!
# Bindings of names to trees

Bindings are a finite map, and `get?` is the view through which every operation is described: two
bindings that answer alike at every name are equal, however they came about. Entries are listed in
the order of their names.
-/

namespace Sexp

structure Bindings where
  entries : Std.ExtTreeMap String Tree

namespace Bindings

instance : EmptyCollection Bindings := ⟨⟨∅⟩⟩

instance : Inhabited Bindings := ⟨∅⟩

def get? (b : Bindings) (name : String) : Option Tree :=
  b.entries[name]?

def contains (b : Bindings) (name : String) : Bool :=
  b.entries.contains name

def size (b : Bindings) : Nat :=
  b.entries.size

def isEmpty (b : Bindings) : Bool :=
  b.entries.isEmpty

def toList (b : Bindings) : List (String × Tree) :=
  b.entries.toList

/-- Binds a name, whatever it was bound to before. -/
def insert (b : Bindings) (name : String) (tree : Tree) : Bindings :=
  ⟨b.entries.insert name tree⟩

/-- Binds a name and answers what it was bound to before. -/
def getThenInsert (b : Bindings) (name : String) (tree : Tree) : Option Tree × Bindings :=
  (b.get? name, b.insert name tree)

/-- Binds the names in order, so the last tree given for a name stays. -/
def extend (b : Bindings) (pairs : List (String × Tree)) : Bindings :=
  pairs.foldl (fun b p => b.insert p.1 p.2) b

def ofList (pairs : List (String × Tree)) : Bindings :=
  (∅ : Bindings).extend pairs

/-- All entries of both; where both bind a name, the second. -/
def merge (b c : Bindings) : Bindings :=
  b.extend c.toList

/-- The entries whose names are listed. -/
def restrict (b : Bindings) (names : List String) : Bindings :=
  .ofList (names.filterMap fun name => (b.get? name).map (name, ·))

@[ext] theorem ext_get? {b c : Bindings} (h : ∀ name, b.get? name = c.get? name) : b = c := by
  obtain ⟨b⟩ := b
  obtain ⟨c⟩ := c
  exact congrArg _ (Std.ExtTreeMap.ext_getElem? h)

theorem toList_inj {b c : Bindings} : b.toList = c.toList ↔ b = c :=
  ⟨fun h => congrArg mk (Std.ExtTreeMap.toList_inj.1 h), congrArg toList⟩

instance : DecidableEq Bindings := fun _ _ => decidable_of_iff _ toList_inj

@[simp] theorem get?_empty (name : String) : get? ∅ name = none :=
  Std.ExtTreeMap.getElem?_empty

@[simp] theorem contains_eq (b : Bindings) (name : String) :
    b.contains name = (b.get? name).isSome :=
  Std.ExtTreeMap.contains_eq_isSome_getElem?

@[simp] theorem get?_insert (b : Bindings) (name other : String) (tree : Tree) :
    (b.insert name tree).get? other = if name = other then some tree else b.get? other := by
  simp [get?, insert, Std.ExtTreeMap.getElem?_insert]

theorem mem_toList {b : Bindings} {name : String} {tree : Tree} :
    (name, tree) ∈ b.toList ↔ b.get? name = some tree :=
  Std.ExtTreeMap.mem_toList_iff_getElem?_eq_some

@[simp] theorem extend_nil (b : Bindings) : b.extend [] = b := rfl

@[simp] theorem extend_cons (b : Bindings) (p : String × Tree) (ps : List (String × Tree)) :
    b.extend (p :: ps) = (b.insert p.1 p.2).extend ps := rfl

/-- The last tree that the pairs give for a name is bound to it. -/
theorem get?_extend (b : Bindings) (ps : List (String × Tree)) (name : String) :
    (b.extend ps).get? name = (ps.reverse.lookup name).or (b.get? name) := by
  induction ps generalizing b with
  | nil => rfl
  | cons p ps ih =>
    have first : (b.insert p.1 p.2).get? name = ([p].lookup name).or (b.get? name) := by
      rw [get?_insert, List.lookup_cons]
      by_cases same : p.1 = name
      · simp [same]
      · have other : (name == p.1) = false := beq_eq_false_iff_ne.2 (Ne.symm same)
        simp [same, other]
    rw [extend_cons, ih, first, List.reverse_cons, List.lookup_append, Option.or_assoc]

theorem get?_extend_of_not_mem {b : Bindings} {ps : List (String × Tree)} {name : String}
    (h : name ∉ ps.map Prod.fst) : (b.extend ps).get? name = b.get? name := by
  have absent : ps.reverse.lookup name = none := by
    refine List.lookup_eq_none_iff.2 fun p mem => bne_iff_ne.2 fun same => ?_
    exact h (same ▸ List.mem_map_of_mem (List.mem_reverse.1 mem))
  rw [get?_extend, absent, Option.none_or]

theorem get?_extend_of_mem {b : Bindings} {ps : List (String × Tree)} {name : String} {tree : Tree}
    (given : (name, tree) ∈ ps) (only : ∀ u, (name, u) ∈ ps → u = tree) :
    (b.extend ps).get? name = some tree := by
  rw [get?_extend]
  cases found : ps.reverse.lookup name with
  | none =>
    have other := List.lookup_eq_none_iff.1 found (name, tree) (List.mem_reverse.2 given)
    simp at other
  | some u =>
    obtain ⟨before, after, pairs, -⟩ := List.lookup_eq_some_iff.1 found
    have mem : (name, u) ∈ ps := List.mem_reverse.1 (by simp [pairs])
    rw [only u mem, Option.some_or]

/-- Pairs that are the entries of other bindings, in any order. -/
theorem get?_extend_of_entries {b c : Bindings} {ps : List (String × Tree)}
    (entries : ∀ name tree, (name, tree) ∈ ps ↔ c.get? name = some tree) (name : String) :
    (b.extend ps).get? name = (c.get? name).or (b.get? name) := by
  cases h : c.get? name with
  | none =>
    refine get?_extend_of_not_mem fun mem => ?_
    obtain ⟨⟨_, u⟩, hu, rfl⟩ := List.mem_map.1 mem
    simp [(entries _ u).1 hu] at h
  | some t =>
    refine get?_extend_of_mem ((entries name t).2 h) fun u hu => ?_
    simpa [(entries name u).1 hu] using h

theorem get?_merge (b c : Bindings) (name : String) :
    (b.merge c).get? name = (c.get? name).or (b.get? name) :=
  get?_extend_of_entries (fun _ _ => mem_toList) name

/-- Each listed name is bound to what the function gives for it, if it gives anything. -/
theorem get?_ofList_filterMap (f : String → Option Tree) (names : List String) (name : String) :
    (ofList (names.filterMap fun name => (f name).map (name, ·))).get? name =
      if name ∈ names then f name else none := by
  unfold ofList
  by_cases listed : name ∈ names ∧ (f name).isSome
  · obtain ⟨mem, t, ht⟩ := And.imp_right Option.isSome_iff_exists.1 listed
    rw [if_pos mem, ht]
    refine get?_extend_of_mem (List.mem_filterMap.2 ⟨name, mem, by simp [ht]⟩) fun u hu => ?_
    obtain ⟨n, _, hn⟩ := List.mem_filterMap.1 hu
    obtain ⟨v, hv, hv'⟩ := Option.map_eq_some_iff.1 hn
    cases hv'
    exact Option.some.inj (hv.symm.trans ht)
  · rw [get?_extend_of_not_mem]
    · split <;> simp_all
    · intro mem
      obtain ⟨⟨_, u⟩, hu, rfl⟩ := List.mem_map.1 mem
      obtain ⟨n, hn, hn'⟩ := List.mem_filterMap.1 hu
      obtain ⟨v, hv, hv'⟩ := Option.map_eq_some_iff.1 hn'
      cases hv'
      exact listed ⟨hn, by simp [hv]⟩

theorem get?_restrict (b : Bindings) (names : List String) (name : String) :
    (b.restrict names).get? name = if name ∈ names then b.get? name else none :=
  get?_ofList_filterMap b.get? names name

theorem contains_restrict {b : Bindings} {names : List String} {name : String} :
    (b.restrict names).contains name ↔ name ∈ names ∧ b.contains name := by
  rw [contains_eq, contains_eq, get?_restrict]
  split
  next listed => simp only [listed, true_and]
  next other => simp only [other, false_and, Option.isSome_none, Bool.false_eq_true]

end Bindings

end Sexp
