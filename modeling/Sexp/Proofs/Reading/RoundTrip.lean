import Sexp.Proofs.Examples.Image
import Sexp.Proofs.Reading.Concatenation
import Sexp.Proofs.Reading.Numerals

/-!
# Reading back what was printed

A printed tree is read back exactly when it is readable: it has no invalid part, and each of its
symbols has a name that is the text of an atom and no number. Reading gives nothing but readable
trees, whatever the text is. So a text of which all forms are read may be printed anew, with another
layout and its numbers in their shortest form, and is read as the same trees. The text of a pattern
does not tell holes from symbols; taken for an example, what it is read as is the pattern again
exactly when the pattern is legible.
-/

namespace Sexp

/-- A name that is an atom by itself and not a number. -/
structure IsName (name : String) : Prop where
  text : IsAtomText name.toList
  notNumber : Text.Decimal.int64? name.toList = none

namespace Tree

inductive Readable : Tree → Prop where
  | symbol : IsName name → Readable (.symbol name)
  | number : Readable (.number value)
  | list : (∀ t ∈ ts, Readable t) → Readable (.list ts)

end Tree

theorem isAtomText_pieces (v : Int64) :
    IsAtomText ((Text.Decimal.pieces v).flatMap String.toList) :=
  (Text.Decimal.int?_eq_some_iff.1 (Text.Decimal.int?_pieces v)).isAtomText

theorem elements_chars {t : Tree} {ts : List Tree} (first : Form t.chars t)
    (others : ∀ u ∈ ts, Form u.chars u) :
    Elements (t.chars ++ Tree.charsAfter ts) (t :: ts) := by
  induction ts generalizing t with
  | nil =>
    rw [Tree.charsAfter_nil]
    exact .cons first .nil (fun _ some => absurd rfl some) .close
  | cons u us ih =>
    have rest := ih (others u List.mem_cons_self) fun w mem =>
      others w (List.mem_cons_of_mem u mem)
    have space : Blank [' '] := .of_all (by decide)
    rw [Tree.charsAfter_cons, ← List.singleton_append]
    exact .cons first space (fun _ _ => List.cons_ne_nil _ _) rest

theorem form_chars {t : Tree} (readable : t.Readable) : Form t.chars t := by
  induction readable with
  | @symbol name plain =>
    have form : Form name.toList (.symbol (.ofList name.toList)) :=
      .symbol plain.text plain.notNumber
    rwa [String.ofList_toList, ← Tree.chars_symbol] at form
  | @number v =>
    rw [Tree.chars_number]
    exact .number (isAtomText_pieces v) (Text.Decimal.int64?_pieces v)
  | @list ts _ ih =>
    cases ts with
    | nil => exact Tree.chars_list_nil ▸ .list .nil .close
    | cons t ts =>
      have elements := elements_chars (ih t List.mem_cons_self) fun u mem =>
        ih u (List.mem_cons_of_mem t mem)
      rw [Tree.chars_list_cons, ← List.nil_append (t.chars ++ _)]
      exact .list .nil elements

mutual

theorem Form.readable {f : List Char} {t : Tree} (form : Form f t) : t.Readable := by
  match form with
  | .number _ _ => exact .number
  | .symbol text other =>
    exact .symbol ⟨String.toList_ofList ▸ text, String.toList_ofList ▸ other⟩
  | .list _ elements => exact .list elements.readable
termination_by structural form

theorem Elements.readable {body : List Char} {ts : List Tree} (elements : Elements body ts) :
    ∀ t ∈ ts, t.Readable := by
  match elements with
  | .close => exact nofun
  | .cons form _ _ later =>
    intro u mem
    rcases List.mem_cons.1 mem with same | mem
    · exact same ▸ form.readable
    · exact later.readable u mem
termination_by structural elements

end

theorem Reader.readable_of_read {r : Reader} {t : Tree} (reading : r.read.result = .ok t) :
    t.Readable := by
  obtain ⟨_, _, _, _, form, _⟩ := r.spells_of_attempts.1 t reading
  exact form.readable

theorem Tree.Readable.parse_text {t : Tree} (readable : t.Readable) :
    Tree.parse t.text = .ok t := by
  have passes : (Reader.ofString t.text).Passes ([] ++ t.chars)
      (Reader.ofString t.text).skipAll := by
    rw [List.nil_append, ← Tree.toList_text]
    exact Reader.passes_skipAll _
  rw [Tree.parse, (form_chars readable).read_eq .nil passes fun _ => nofun]

/-- The trees that survive a trip through their printed form are the readable ones. -/
theorem parse_text_eq_ok_iff_readable (t : Tree) : Tree.parse t.text = .ok t ↔ t.Readable := by
  constructor
  · exact Reader.readable_of_read
  · exact Tree.Readable.parse_text

/-! ## Printing what was read -/

namespace Reader

variable {r s : Reader} {w f : List Char} {t : Tree}

theorem exists_read_of_mem_items {item : Except ReadError Tree} (mem : item ∈ r.items) :
    ∃ s : Reader, s.read.result = item := by
  induction r using items_induction with
  | last r unread =>
    rw [items_of_end unread] at mem
    contradiction
  | more r more ih =>
    rw [items_of_read more] at mem
    rcases List.mem_cons.1 mem with first | later
    · exact ⟨r, first.symm⟩
    · exact ih later

theorem items_of_form (form : Form f t) (blank : Blank w) (passes : r.Passes (w ++ f) s)
    (stops : IsAtomText f → Stops isAtomChar s.unread) : r.items = .ok t :: s.items := by
  have reading : r.read = ⟨.ok t, s⟩ := form.read_eq blank passes stops
  exact items_of_read_eq reading nofun

/-- Printed trees, each with the blanks after it, which only the last one may lack. -/
theorem items_layout {parts : List (Tree × String)} (readable : ∀ p ∈ parts, p.1.Readable)
    (blank : ∀ p ∈ parts, Blank p.2.toList) (apart : ∀ p ∈ parts.dropLast, p.2 ≠ "")
    (before : Blank w) (offset : Nat) :
    items ⟨w ++ parts.flatMap fun p => p.1.chars ++ p.2.toList, offset⟩ =
      parts.map fun p => .ok p.1 := by
  induction parts generalizing w offset with
  | nil =>
    have passes : Passes ⟨w ++ [], offset⟩ w ⟨[], offset + Text.utf8Size w⟩ := ⟨rfl, rfl⟩
    rw [List.flatMap_nil, items_of_blank before passes, items_of_end rfl, List.map_nil]
  | cons p parts ih =>
    obtain ⟨t, gap⟩ := p
    rw [List.forall_mem_cons] at readable blank
    have form : Form t.chars t := form_chars readable.1
    have passes : Passes
        ⟨w ++ ((t, gap) :: parts).flatMap fun p => p.1.chars ++ p.2.toList, offset⟩ (w ++ t.chars)
        ⟨gap.toList ++ parts.flatMap fun p => p.1.chars ++ p.2.toList,
          offset + Text.utf8Size (w ++ t.chars)⟩ := ⟨by simp, rfl⟩
    have stops : Stops isAtomChar
        (gap.toList ++ parts.flatMap fun p => p.1.chars ++ p.2.toList) := by
      -- Only the last tree may lack its blanks, and then the text ends with it.
      by_cases empty : gap = ""
      · have last : parts = [] := Classical.byContradiction fun more =>
          apart (t, gap) (by simp [List.dropLast_cons_of_ne_nil more]) empty
        rw [empty, last]
        exact nofun
      · exact blank.1.stops (mt String.toList_eq_nil_iff.1 empty) _
    have later : ∀ p ∈ parts.dropLast, p.2 ≠ "" := by
      intro p mem
      have more : parts ≠ [] := by
        rintro rfl
        contradiction
      exact apart p (by simp [List.dropLast_cons_of_ne_nil more, mem])
    rw [items_of_form form before passes fun _ => stops, ih readable.2 blank.2 later blank.1,
      List.map_cons]

end Reader

/-- The trees that a text is read as are read again from their printed forms, whichever blanks
stand before, between and after these. -/
theorem parseAll_layout {source : String} {ts : List Tree} (whole : Tree.parseAll source = .ok ts)
    {before : String} {parts : List (Tree × String)} (trees : parts.map Prod.fst = ts)
    (lead : Blank before.toList) (blank : ∀ p ∈ parts, Blank p.2.toList)
    (apart : ∀ p ∈ parts.dropLast, p.2 ≠ "") :
    Tree.parseAll (before ++ String.join (parts.map fun p => p.1.text ++ p.2)) = .ok ts := by
  have readable : ∀ p ∈ parts, p.1.Readable := by
    intro p mem
    have item : .ok p.1 ∈ (Reader.ofString source).items := by
      rw [Tree.parseAll_eq_ok_iff.1 whole, ← trees, List.map_map]
      exact List.mem_map.2 ⟨p, mem, rfl⟩
    obtain ⟨s, reading⟩ := Reader.exists_read_of_mem_items item
    exact Reader.readable_of_read reading
  have text : Reader.ofString (before ++ String.join (parts.map fun p => p.1.text ++ p.2)) =
      ⟨before.toList ++ parts.flatMap fun p => p.1.chars ++ p.2.toList, 0⟩ := by
    simp [Reader.ofString, Tree.toList_text, List.flatMap_map]
  rw [Tree.parseAll_eq_ok_iff, text, Reader.items_layout readable blank apart lead, ← trees,
    List.map_map]
  rfl

/-- Neither the layout nor the spelling of the numbers is that of the source. -/
theorem parseAll_layout_respelt :
    let ts : List Tree := [.number 5, .list [.number 7], .number 0]
    Tree.parseAll " +5 ( 007\n)-0" = .ok ts ∧ Tree.parseAll "\t5\n(7)\u2003 0" = .ok ts := by
  intro ts
  have first : (Reader.ofString " +5 ( 007\n)-0").read =
      ⟨.ok (.number 5), ⟨[' ', '(', ' ', '0', '0', '7', '\n', ')', '-', '0'], 3⟩⟩ :=
    Reader.read_of_atom rfl (by decide) (by decide)
  have inside : Reader.read ⟨[' ', '0', '0', '7', '\n', ')', '-', '0'], 5⟩ =
      ⟨.ok (.number 7), ⟨['\n', ')', '-', '0'], 9⟩⟩ :=
    Reader.read_of_atom rfl (by decide) (by decide)
  have close : Reader.elements 4 ⟨['\n', ')', '-', '0'], 9⟩ = ⟨.ok [], ⟨['-', '0'], 11⟩⟩ :=
    Reader.elements_of_close rfl
  have second : Reader.read ⟨[' ', '(', ' ', '0', '0', '7', '\n', ')', '-', '0'], 3⟩ =
      ⟨.ok (.list [.number 7]), ⟨['-', '0'], 11⟩⟩ := by
    have opening : Reader.read ⟨[' ', '(', ' ', '0', '0', '7', '\n', ')', '-', '0'], 3⟩ =
        (Reader.elements 4 ⟨[' ', '0', '0', '7', '\n', ')', '-', '0'], 5⟩).map .list :=
      Reader.read_of_open rfl
    rw [opening, Reader.elements_of_form rfl (by decide), inside]
    simp only [Reader.Attempt.andThen, close]
    rfl
  have third : Reader.read ⟨['-', '0'], 11⟩ = ⟨.ok (.number 0), ⟨[], 13⟩⟩ :=
    Reader.read_of_atom rfl (by decide) (by decide)
  have whole : Tree.parseAll " +5 ( 007\n)-0" = .ok ts := by
    rw [Tree.parseAll_eq_ok_iff, Reader.items_of_read_eq first nofun,
      Reader.items_of_read_eq second nofun, Reader.items_of_read_eq third nofun,
      Reader.items_of_end rfl]
    rfl
  have printed : "\t5\n(7)\u2003 0" = "\t" ++ String.join
      ([(.number 5, "\n"), (.list [.number 7], "\u2003 "), (.number 0, "")].map
        fun p : Tree × String => p.1.text ++ p.2) := by decide
  refine ⟨whole, printed ▸ parseAll_layout whole rfl ?_ ?_ ?_⟩
  · exact .of_all (by decide)
  · simp [Blank, Text.isBlank, Text.inRanges, Text.blankRanges]
  · simp

/-! ## Patterns -/

namespace Pattern

/-- Nothing of the pattern is lost in its text. -/
structure Legible (p : Pattern) : Prop where
  atoms : ∀ t ∈ p.literals, t.isAtom
  apart : ∀ name ∈ p.holes, .symbol name ∉ p.literals
  holes : ∀ name ∈ p.holes, IsName name
  symbols : ∀ name, .symbol name ∈ p.literals → IsName name

variable {p : Pattern} {names : List String} {name : String} {e t : Tree}

theorem readable_toTree (atoms : ∀ t ∈ p.literals, t.isAtom)
    (holes : ∀ name ∈ p.occurrences, IsName name)
    (symbols : ∀ name, .symbol name ∈ p.literals → IsName name) : p.toTree.Readable := by
  induction p with
  | literal tree =>
    have self : tree ∈ (literal tree).literals := List.mem_singleton_self tree
    have atom : tree.isAtom := atoms tree self
    rw [toTree]
    cases tree with
    | invalid | list => contradiction
    | symbol name => exact .symbol (symbols name self)
    | number value => exact .number
  | hole name => exact .symbol (holes name (List.mem_singleton_self name))
  | list ps each =>
    rw [toTree_list]
    apply Tree.Readable.list
    intro t element
    obtain ⟨p, mem, rfl⟩ := List.mem_map.1 element
    exact each p mem (fun t inside => atoms t (mem_literals_list mem inside))
      (fun name inside => holes name (mem_occurrences_list mem inside))
      (fun name inside => symbols name (mem_literals_list mem inside))

theorem Legible.readable_toTree (legible : p.Legible) : p.toTree.Readable :=
  Pattern.readable_toTree legible.atoms (fun name hole => legible.holes name (mem_holes.2 hole))
    legible.symbols

theorem Legible.ofExample_toTree (legible : p.Legible) : ofExample p.holes p.toTree = p := by
  have lists : ∀ ts, .list ts ∉ p.literals := fun ts mem =>
    absurd (legible.atoms _ mem) Bool.false_ne_true
  exact Exemplary.ofExample_toTree ⟨lists, legible.apart⟩

theorem readable_of_mem_literals (readable : e.Readable)
    (mem : t ∈ (ofExample names e).literals) : t.Readable ∧ t.isAtom := by
  induction readable with
  | @symbol name plain =>
    by_cases listed : name ∈ names
    · rw [ofExample_symbol_of_mem listed] at mem
      contradiction
    · rw [ofExample_symbol_of_not_mem listed] at mem
      obtain rfl := List.mem_singleton.1 mem
      exact ⟨.symbol plain, rfl⟩
  | number =>
    obtain rfl := List.mem_singleton.1 mem
    exact ⟨.number, rfl⟩
  | list _ each =>
    obtain ⟨e, element, inside⟩ := mem_literals_ofExample_list.1 mem
    exact each e element inside

theorem isName_of_mem_occurrences (readable : e.Readable)
    (mem : name ∈ (ofExample names e).occurrences) : IsName name := by
  induction readable with
  | @symbol other plain =>
    by_cases listed : other ∈ names
    · rw [ofExample_symbol_of_mem listed] at mem
      obtain rfl := List.mem_singleton.1 mem
      exact plain
    · rw [ofExample_symbol_of_not_mem listed] at mem
      contradiction
  | number => contradiction
  | list _ each =>
    obtain ⟨e, element, inside⟩ := mem_occurrences_ofExample_list.1 mem
    exact each e element inside

theorem legible_ofExample (readable : e.Readable) (same : ofExample p.holes e = p) :
    p.Legible := by
  constructor
  · intro t mem
    rw [← same] at mem
    exact (readable_of_mem_literals readable mem).2
  · have exemplary := exemplary_ofExample p.holes e
    rw [same] at exemplary
    exact exemplary.apart
  · intro name hole
    rw [mem_holes, ← same] at hole
    exact isName_of_mem_occurrences readable hole
  · intro name mem
    rw [← same] at mem
    cases (readable_of_mem_literals readable mem).1 with
    | symbol plain => exact plain

/-- The patterns that survive a trip through their text are the legible ones. -/
theorem parse_text_ofExample_iff_legible (p : Pattern) :
    (∃ e, Tree.parse p.text = .ok e ∧ ofExample p.holes e = p) ↔ p.Legible := by
  constructor
  · intro back
    -- What is read is readable, and a readable example gives legible patterns only.
    obtain ⟨e, reading, same⟩ := back
    exact legible_ofExample (Reader.readable_of_read reading) same
  · intro legible
    have reading : Tree.parse p.text = .ok p.toTree := by
      rw [← text_toTree]
      exact legible.readable_toTree.parse_text
    exact ⟨p.toTree, reading, legible.ofExample_toTree⟩

/-- A literal symbol that is named for a hole is read back as that hole. -/
example : ¬(list [.hole "x", .literal (.symbol "x")]).Legible := by
  intro legible
  exact legible.apart "x" (by decide) (by decide)

end Pattern

end Sexp
