import Sexp.Tree

/-!
# Trees told apart by observation

A descent goes down a tree along a path of indices, and at each node the shape, the name or number
and the length of a list can be seen. Trees that look alike along every path are equal
(`LooksLike.eq`). It is essential that a descent ends where there is no element: elements looked up
with `elementOrInvalid` cannot tell how many invalid trees a list ends with
(`elementOrInvalid_eq_iff`).
-/

namespace Sexp.Tree

/-- The node at the end of a path of indices, each an index into the elements of a list. -/
def descend : List Nat → Tree → Option Tree
  | [], t => some t
  | i :: path, t => (t.elements?.bind (·[i]?)).bind (descend path)

/-- What can be seen of two nodes without going further down is the same. -/
structure SameNode (t u : Tree) : Prop where
  shape : t.shape = u.shape
  symbol : t.symbol? = u.symbol?
  number : t.number? = u.number?
  length : t.elements?.map List.length = u.elements?.map List.length

/-- Each path leads to a node in both trees or in neither, and the nodes are the same to look at. -/
structure LooksLike (a b : Tree) : Prop where
  defined : ∀ path, (descend path a).isSome = (descend path b).isSome
  same : ∀ path t u, descend path a = some t → descend path b = some u → t.SameNode u

variable {a b t u : Tree} {ts us : List Tree} {i : Nat}

@[simp] theorem descend_nil (t : Tree) : descend [] t = some t := rfl

@[simp] theorem descend_list (i : Nat) (path : List Nat) (ts : List Tree) :
    descend (i :: path) (.list ts) = ts[i]?.bind (descend path) := rfl

theorem LooksLike.refl (a : Tree) : a.LooksLike a := by
  refine ⟨fun _ => rfl, fun path t u first second => ?_⟩
  obtain rfl : t = u := Option.some.inj (first.symm.trans second)
  exact ⟨rfl, rfl, rfl, rfl⟩

theorem LooksLike.sameNode (alike : a.LooksLike b) : a.SameNode b :=
  alike.same [] a b rfl rfl

theorem SameNode.exists_list (node : (list ts).SameNode b) :
    ∃ us, b = .list us ∧ ts.length = us.length := by
  cases b with
  | list us => exact ⟨us, rfl, by simpa [elements?] using node.length⟩
  | invalid | symbol | number => exact absurd node.shape (by simp [Tree.shape])

theorem LooksLike.element (alike : (list ts).LooksLike (.list us)) (first : ts[i]? = some t)
    (second : us[i]? = some u) : t.LooksLike u := by
  constructor
  · intro path
    simpa [first, second] using alike.defined (i :: path)
  · intro path m n left right
    exact alike.same (i :: path) m n (by simpa [first] using left) (by simpa [second] using right)

theorem LooksLike.eq (alike : a.LooksLike b) : a = b := by
  have node : a.SameNode b := alike.sameNode
  induction a generalizing b with
  | invalid =>
    cases b with
    | invalid => rfl
    | symbol | number | list => exact absurd node.shape (by simp [shape])
  | symbol name =>
    cases b with
    | symbol other => exact congrArg symbol (Option.some.inj node.symbol)
    | invalid | number | list => exact absurd node.shape (by simp [shape])
  | number value =>
    cases b with
    | number other => exact congrArg number (Option.some.inj node.number)
    | invalid | symbol | list => exact absurd node.shape (by simp [shape])
  | list ts each =>
    obtain ⟨us, rfl, lengths⟩ := node.exists_list
    refine congrArg list (List.ext_getElem lengths fun i inside inside' => ?_)
    have below : ts[i].LooksLike us[i] :=
      alike.element (List.getElem?_eq_getElem inside) (List.getElem?_eq_getElem inside')
    exact each ts[i] (List.getElem_mem inside) below below.sameNode

theorem looksLike_iff : a.LooksLike b ↔ a = b := by
  refine ⟨LooksLike.eq, fun same => ?_⟩
  subst same
  exact .refl a

theorem elementOrInvalid_append_replicate (core : List Tree) (n i : Nat) :
    elementOrInvalid (core ++ List.replicate n .invalid) i = elementOrInvalid core i := by
  unfold elementOrInvalid
  rcases Nat.lt_or_ge i core.length with inside | outside
  · rw [List.getElem?_append_left inside]
  · rw [List.getElem?_append_right outside, List.getElem?_eq_none outside, List.getElem?_replicate]
    split <;> rfl

theorem eq_replicate_of_elementOrInvalid (none : ∀ i, elementOrInvalid ts i = .invalid) :
    ts = List.replicate ts.length .invalid := by
  refine List.eq_replicate_iff.2 ⟨rfl, fun t mem => ?_⟩
  obtain ⟨i, inside, rfl⟩ := List.mem_iff_getElem.1 mem
  simpa [elementOrInvalid, inside] using none i

/-- Elements looked up with `elementOrInvalid` agree on lists that differ by how many invalid trees
they end with, and on no others. -/
theorem elementOrInvalid_eq_iff :
    (∀ i, elementOrInvalid ts i = elementOrInvalid us i) ↔
      ∃ core m n, ts = core ++ List.replicate m .invalid ∧
        us = core ++ List.replicate n .invalid := by
  constructor
  · intro agree
    induction ts generalizing us with
    | nil =>
      have none : ∀ i, elementOrInvalid us i = .invalid := fun i => (agree i).symm
      exact ⟨[], 0, us.length, rfl, eq_replicate_of_elementOrInvalid none⟩
    | cons t ts ih =>
      cases us with
      | nil => exact ⟨[], (t :: ts).length, 0, eq_replicate_of_elementOrInvalid agree, rfl⟩
      | cons u us =>
        obtain rfl : t = u := agree 0
        obtain ⟨core, m, n, rfl, rfl⟩ := ih fun i => agree (i + 1)
        exact ⟨t :: core, m, n, rfl, rfl⟩
  · intro lists i
    obtain ⟨core, m, n, rfl, rfl⟩ := lists
    rw [elementOrInvalid_append_replicate, elementOrInvalid_append_replicate]

/-- Trees are found equal, in either order, when they look alike along every path. The element or
the invalid tree at every index does not suffice for that: lists that agree on it differ at most in
how many invalid trees they end with, and if they do differ then they are not equal. -/
theorem beq_iff_looksLike (a b : Tree) :
    ((a == b) = true ↔ a.LooksLike b) ∧ ((b == a) = true ↔ a.LooksLike b) ∧
    (∀ elements i,
      (∀ t, elements[i]? = some t → elementOrInvalid elements i = t) ∧
      (elements[i]? = none → elementOrInvalid elements i = .invalid)) ∧
    (∀ ts us, (∀ i, elementOrInvalid ts i = elementOrInvalid us i) ↔
      ∃ core m n, ts = core ++ List.replicate m .invalid ∧
        us = core ++ List.replicate n .invalid ∧ ((list ts == list us) = true ↔ m = n)) := by
  refine ⟨?_, ?_, fun elements i => ?_, fun ts us => ?_⟩
  · rw [beq_iff_eq, looksLike_iff]
  · rw [beq_iff_eq, looksLike_iff, eq_comm]
  · exact ⟨fun t found => by simp [elementOrInvalid, found],
      fun outside => by simp [elementOrInvalid, outside]⟩
  · rw [elementOrInvalid_eq_iff]
    constructor
    · rintro ⟨core, m, n, rfl, rfl⟩
      exact ⟨core, m, n, rfl, rfl, by simp⟩
    · rintro ⟨core, m, n, first, second, -⟩
      exact ⟨core, m, n, first, second⟩

end Sexp.Tree
