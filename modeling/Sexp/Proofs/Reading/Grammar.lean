import Sexp.Proofs.Reading.Passing

/-!
# The grammar of forms

`Form f t` says that the text `f` is a form of the tree `t`. The text of an atom is a number of 64
bits or else a symbol. A `(` may stand inside an atom, so an atom needs a blank before the next
element, while a list needs none. Main statement: reading succeeds exactly on a form after blanks,
and an atom is not cut short.
-/

namespace Sexp

def Blank (w : List Char) : Prop :=
  ∀ c ∈ w, Text.isBlank c

structure IsAtomText (f : List Char) : Prop where
  nonempty : f ≠ []
  chars : ∀ c ∈ f, isAtomChar c
  opening : f.head? ≠ some '('

mutual

inductive Form : List Char → Tree → Prop where
  | number : IsAtomText f → Text.Decimal.int64? f = some v → Form f (.number v)
  | symbol : IsAtomText f → Text.Decimal.int64? f = none → Form f (.symbol (.ofList f))
  | list : Blank w → Elements body ts → Form ('(' :: (w ++ body)) (.list ts)

/-- The text of a list's elements, from the first one to the closing parenthesis. -/
inductive Elements : List Char → List Tree → Prop where
  | close : Elements [')'] []
  | cons : Form f t → Blank w → (IsAtomText f → ts ≠ [] → w ≠ []) → Elements body ts →
      Elements (f ++ (w ++ body)) (t :: ts)

end

theorem Blank.nil : Blank [] := nofun

theorem Blank.of_all {w : List Char} (blank : w.all Text.isBlank) : Blank w :=
  List.all_eq_true.1 blank

theorem Blank.append {v w : List Char} (first : Blank v) (second : Blank w) : Blank (v ++ w) :=
  List.forall_mem_append.2 ⟨first, second⟩

theorem blank_takeWhile (cs : List Char) : Blank (cs.takeWhile Text.isBlank) :=
  .of_all List.all_takeWhile

theorem not_isAtomText_open (f : List Char) : ¬IsAtomText ('(' :: f) :=
  fun text => text.opening rfl

theorem IsAtomText.exists_cons {f : List Char} (text : IsAtomText f) :
    ∃ c cs, f = c :: cs ∧ isAtomChar c ∧ c ≠ '(' := by
  obtain ⟨c, cs, rfl⟩ := List.exists_cons_of_ne_nil text.nonempty
  refine ⟨c, cs, rfl, text.chars c List.mem_cons_self, fun opening => ?_⟩
  exact text.opening (congrArg some opening)

theorem Form.atom {f : List Char} (text : IsAtomText f) : Form f (.ofAtom f) := by
  unfold Tree.ofAtom
  split
  next v found => exact .number text found
  next none => exact .symbol text none

theorem Form.exists_cons {f : List Char} {t : Tree} (form : Form f t) :
    ∃ c cs, f = c :: cs ∧ isAtomChar c := by
  cases form with
  | number text | symbol text =>
    obtain ⟨c, cs, rfl, char, -⟩ := text.exists_cons
    exact ⟨c, cs, rfl, char⟩
  | list => exact ⟨'(', _, rfl, by decide⟩

theorem Elements.exists_cons {body : List Char} {ts : List Tree} (elements : Elements body ts) :
    ∃ c cs, body = c :: cs ∧ Text.isBlank c = false ∧ (ts ≠ [] → isAtomChar c) := by
  cases elements with
  | close => exact ⟨')', [], rfl, by decide, fun some => absurd rfl some⟩
  | cons form =>
    obtain ⟨c, cs, rfl, char⟩ := form.exists_cons
    exact ⟨c, _, rfl, (isAtomChar_iff.1 char).1, fun _ => char⟩

/-- No atom goes on over blanks. -/
theorem Blank.stops {w : List Char} (blank : Blank w) (apart : w ≠ []) (rest : List Char) :
    Reader.Stops isAtomChar (w ++ rest) := by
  obtain ⟨c, w, rfl⟩ := List.exists_cons_of_ne_nil apart
  intro d head
  cases head
  exact isAtomChar_eq_false_iff.2 (.inl (blank c List.mem_cons_self))

theorem Elements.stops {body w : List Char} {ts : List Tree} (elements : Elements body ts)
    (blank : Blank w) (apart : ts ≠ [] → w ≠ []) (rest : List Char) :
    Reader.Stops isAtomChar (w ++ body ++ rest) := by
  by_cases empty : w = []
  · obtain rfl : ts = [] := Classical.byContradiction fun some => apart some empty
    cases elements
    intro d head
    rw [empty] at head
    cases head
    decide
  · rw [List.append_assoc]
    exact blank.stops empty _

namespace Reader

variable {r s : Reader} {w f cs : List Char}

theorem exists_skipBlank_eq (blank : Blank w) (passes : r.Passes (w ++ f) s)
    (start : Stops Text.isBlank (f ++ s.unread)) : ∃ m, r.skipBlank = m ∧ m.Passes f s := by
  obtain ⟨m, before, rest⟩ := passes.split
  refine ⟨m, skipWhile_eq_iff.2 ⟨w, before, blank, ?_⟩, rest⟩
  rw [rest.unread]
  exact start

theorem stops_isBlank_of_cons {c : Char} (char : Text.isBlank c = false) (cs : List Char) :
    Stops Text.isBlank (c :: cs) := by
  intro d head
  cases head
  exact char

theorem atom_eq_of_passes (text : IsAtomText f) (passes : r.Passes f s)
    (stops : Stops isAtomChar s.unread) : r.atom = .ofAtom f ∧ r.skipAtom = s := by
  constructor
  · rw [atom, passes.unread, takeWhile_append_of_stops text.chars stops]
  · exact skipWhile_eq_iff.2 ⟨f, passes, text.chars, stops⟩

theorem read_eq_ofAtom (text : IsAtomText f) (blank : Blank w) (passes : r.Passes (w ++ f) s)
    (stops : Stops isAtomChar s.unread) : r.read = ⟨.ok (.ofAtom f), s⟩ := by
  obtain ⟨c, cs, rfl, char, opening⟩ := text.exists_cons
  obtain ⟨nonblank, close⟩ := isAtomChar_iff.1 char
  obtain ⟨m, rfl, rest⟩ := exists_skipBlank_eq blank passes (stops_isBlank_of_cons nonblank _)
  obtain ⟨tree, after⟩ := atom_eq_of_passes text rest stops
  rw [read_of_atom rest.unread close opening, tree, after]

end Reader

theorem Form.exists_skipBlank_eq {f w : List Char} {t : Tree} {r s : Reader} (form : Form f t)
    (blank : Blank w) (passes : r.Passes (w ++ f) s) :
    ∃ c cs, r.skipBlank.unread = c :: cs ∧ c ≠ ')' := by
  obtain ⟨c, cs, rfl, char⟩ := form.exists_cons
  obtain ⟨nonblank, close⟩ := isAtomChar_iff.1 char
  obtain ⟨m, rfl, start⟩ := Reader.exists_skipBlank_eq blank passes
    (Reader.stops_isBlank_of_cons nonblank _)
  exact ⟨c, _, start.unread, close⟩

mutual

/-- A form after blanks is read as its tree, if no atom goes on after it. -/
theorem Form.read_eq {f : List Char} {t : Tree} (form : Form f t) {w : List Char} {r s : Reader}
    (blank : Blank w) (passes : r.Passes (w ++ f) s)
    (stops : IsAtomText f → Reader.Stops isAtomChar s.unread) : r.read = ⟨.ok t, s⟩ := by
  match form with
  | .number text found =>
    rw [Reader.read_eq_ofAtom text blank passes (stops text), Tree.ofAtom, found]
  | .symbol text other =>
    rw [Reader.read_eq_ofAtom text blank passes (stops text), Tree.ofAtom, other]
  | .list inner elements =>
    obtain ⟨m, rfl, rest⟩ := Reader.exists_skipBlank_eq blank passes
      (Reader.stops_isBlank_of_cons (by decide) _)
    rw [← List.singleton_append] at rest
    obtain ⟨n, opening, inside⟩ := rest.split
    obtain rfl := opening.unique (Reader.passes_skipOne rest.unread)
    rw [Reader.read_of_open rest.unread, elements.elements_eq _ inner inside]
    rfl
termination_by structural form

theorem Elements.elements_eq {body : List Char} {ts : List Tree} (elements : Elements body ts)
    {w : List Char} {r s : Reader} (opened : Nat) (blank : Blank w)
    (passes : r.Passes (w ++ body) s) : r.elements opened = ⟨.ok ts, s⟩ := by
  match elements with
  | .close =>
    obtain ⟨m, rfl, rest⟩ := Reader.exists_skipBlank_eq blank passes
      (Reader.stops_isBlank_of_cons (by decide) _)
    rw [Reader.elements_of_close rest.unread, (Reader.passes_skipOne rest.unread).unique rest]
  | @Elements.cons f _ _ _ _ form gap apart later =>
    rw [← List.append_assoc] at passes
    obtain ⟨m, first, rest⟩ := passes.split
    obtain ⟨c, cs, unread, close⟩ := form.exists_skipBlank_eq blank first
    have stops : IsAtomText f → Reader.Stops isAtomChar m.unread := by
      intro text
      rw [rest.unread]
      exact later.stops gap (apart text) _
    rw [Reader.elements_of_form unread close, form.read_eq blank first stops]
    have more : m.elements opened = ⟨.ok _, s⟩ := later.elements_eq opened gap rest
    simp only [Reader.Attempt.andThen, more]
    rfl
termination_by structural elements

end

namespace Reader

variable {r s : Reader} {t : Tree} {cs : List Char}

/-- Between the two positions stand blanks and a form of the tree, which ends at the second. -/
def Spells (r : Reader) (t : Tree) (s : Reader) : Prop :=
  ∃ w f, r.Passes (w ++ f) s ∧ Blank w ∧ Form f t ∧ (IsAtomText f → Stops isAtomChar s.unread)

def SpellsElements (r : Reader) (ts : List Tree) (s : Reader) : Prop :=
  ∃ w body, r.Passes (w ++ body) s ∧ Blank w ∧ Elements body ts

theorem spells_atom {c : Char} (unread : r.skipBlank.unread = c :: cs) (close : c ≠ ')')
    (opening : c ≠ '(') : r.Spells r.skipBlank.atom r.skipBlank.skipAtom := by
  have char : isAtomChar c := isAtomChar_iff.2 ⟨not_isBlank_of_skipBlank unread, close⟩
  have text : IsAtomText (r.skipBlank.unread.takeWhile isAtomChar) := by
    rw [unread, List.takeWhile_cons_of_pos char]
    refine ⟨List.cons_ne_nil _ _, ?_, fun head => opening (Option.some.inj head)⟩
    rw [← List.takeWhile_cons_of_pos char]
    exact List.all_eq_true.1 List.all_takeWhile
  refine ⟨_, _, r.passes_skipBlank.trans (passes_skipWhile _ _), blank_takeWhile _, .atom text, ?_⟩
  obtain ⟨_, _, _, stops⟩ := skipWhile_eq_iff.1 (rfl : r.skipBlank.skipWhile isAtomChar = _)
  exact fun _ => stops

theorem SpellsElements.list {ts : List Tree} (unread : r.skipBlank.unread = '(' :: cs)
    (inside : r.skipBlank.skipOne.SpellsElements ts s) : r.Spells (.list ts) s := by
  obtain ⟨w, body, passes, blank, elements⟩ := inside
  refine ⟨r.unread.takeWhile Text.isBlank, '(' :: (w ++ body), ?_, blank_takeWhile _,
    .list blank elements, ?_⟩
  · simpa using (passes_skipBlank_skipOne unread).trans passes
  · exact fun text => absurd text (not_isAtomText_open _)

theorem Spells.cons {ts : List Tree} {m : Reader} (first : r.Spells t m)
    (later : m.SpellsElements ts s) : r.SpellsElements (t :: ts) s := by
  obtain ⟨w, f, before, blank, form, stops⟩ := first
  obtain ⟨v, body, after, gap, elements⟩ := later
  refine ⟨w, f ++ (v ++ body), ?_, blank, .cons form gap ?_ elements⟩
  · simpa using before.trans after
  · intro text more none
    subst none
    obtain ⟨c, cs, rfl, -, char⟩ := elements.exists_cons
    have stop : isAtomChar c = false := stops text c (by rw [after.unread]; rfl)
    rw [char more] at stop
    contradiction

theorem spells_of_attempts (r : Reader) :
    (∀ t, r.read.result = .ok t → r.Spells t r.read.after) ∧
      ∀ opened ts, (r.elements opened).result = .ok ts →
        r.SpellsElements ts (r.elements opened).after := by
  apply read_induction (fun r a => ∀ t, a.result = .ok t → r.Spells t a.after)
    (fun _ r a => ∀ ts, a.result = .ok ts → r.SpellsElements ts a.after)
  case form_end => nofun
  case form_close => nofun
  case form_open =>
    intro r cs a unread inside t whole
    obtain ⟨result, s⟩ := a
    cases result with
    | error e => cases whole
    | ok ts =>
      cases whole
      have spelled : r.skipBlank.skipOne.SpellsElements ts s := inside ts rfl
      exact spelled.list unread
  case form_atom =>
    intro r c cs unread close opening t whole
    cases whole
    exact spells_atom unread close opening
  case inside_end => nofun
  case inside_close =>
    intro opened r cs unread ts whole
    cases whole
    exact ⟨_, _, passes_skipBlank_skipOne unread, blank_takeWhile _, .close⟩
  case inside_error => nofun
  case inside_form =>
    intro opened r c cs t s a unread close reading form inside ts whole
    obtain ⟨result, u⟩ := a
    cases result with
    | error e => cases whole
    | ok ts =>
      cases whole
      have first : r.Spells t s := form t rfl
      have later : s.SpellsElements ts u := inside ts rfl
      exact first.cons later

/-- Reading succeeds exactly on blanks and a form, of which an atom must not go on after the
position that is reached; that position lies behind the bytes of the blanks and the form. -/
theorem read_eq_ok_iff_form (r s : Reader) (t : Tree) :
    r.read = ⟨.ok t, s⟩ ↔
      ∃ w f, r.unread = w ++ f ++ s.unread ∧ s.offset = r.offset + Text.utf8Size (w ++ f) ∧
        Blank w ∧ Form f t ∧
        (IsAtomText f → ∀ c ∈ s.unread.head?, Text.isBlank c ∨ c = ')') := by
  have ends : Stops isAtomChar s.unread ↔ ∀ c ∈ s.unread.head?, Text.isBlank c ∨ c = ')' := by
    simp only [Stops, isAtomChar_eq_false_iff]
  constructor
  · intro reading
    obtain ⟨w, f, passes, blank, form, stops⟩ := r.spells_of_attempts.1 t (by rw [reading])
    rw [reading] at passes stops
    exact ⟨w, f, passes.unread, passes.offset, blank, form, fun text => ends.1 (stops text)⟩
  · intro spelled
    obtain ⟨w, f, unread, offset, blank, form, stops⟩ := spelled
    have passes : r.Passes (w ++ f) s := ⟨unread, offset⟩
    exact form.read_eq blank passes fun text => ends.2 (stops text)

end Reader

end Sexp
