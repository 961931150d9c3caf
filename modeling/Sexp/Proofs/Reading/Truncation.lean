import Sexp.Proofs.Reading.Completion
import Sexp.Proofs.Reading.RoundTrip
import Sexp.Proofs.Writing.Delivery

/-!
# Truncated lists

A printed list of which the end is missing is not taken for a form: as long as no name has a `)`
in it, each `)` of the text closes a list, and the first parenthesis stays open up to the last one.
Names may open further parentheses, as `a (b` does, and so they may only leave more open.
-/

namespace Sexp

namespace Scan

/-- Some parenthesis is open from here to the end of the text. -/
def StaysOpen (s : Scan) (offset : Nat) : List Char → Prop
  | [] => s.opened ≠ []
  | c :: cs => s.opened ≠ [] ∧ (s.step offset c).StaysOpen (offset + c.utf8Size) cs

variable {s : Scan} {offset depth : Nat} {c : Char} {cs rest : List Char}

theorem StaysOpen.opened_ne_nil (stays : s.StaysOpen offset cs) : s.opened ≠ [] := by
  cases cs with
  | nil => exact stays
  | cons c cs => exact stays.1

theorem StaysOpen.of_isPrefix {ds : List Char} (stays : s.StaysOpen offset cs) (begins : ds <+: cs) :
    s.StaysOpen offset ds := by
  induction ds generalizing s offset cs with
  | nil => exact stays.opened_ne_nil
  | cons d ds ih =>
    obtain ⟨rest, rfl⟩ := begins
    exact ⟨stays.1, ih stays.2 (List.prefix_append ds rest)⟩

theorem StaysOpen.run_eq (stays : s.StaysOpen offset cs) :
    ∃ top below, s.run offset cs = (top :: below, ⟨[], offset + Text.utf8Size cs⟩) := by
  induction cs generalizing s offset with
  | nil =>
    obtain ⟨top, below, opened⟩ := List.exists_cons_of_ne_nil stays
    exact ⟨top, below, by simp [run, opened]⟩
  | cons c cs ih =>
    obtain ⟨top, below, course⟩ := ih stays.2
    refine ⟨top, below, ?_⟩
    rw [run, if_neg fun last => stays.2.opened_ne_nil last.2, course]
    simp [Nat.add_assoc]

theorem length_step (going : c ≠ ')') : s.opened.length ≤ (s.step offset c).opened.length := by
  simp only [step, if_neg going]
  split
  · exact Nat.le_refl _
  split
  · simp
  · exact Nat.le_refl _

/-- However deep the scan is, the text does not close what is open before it. -/
def Sustained (text : List Char) : Prop :=
  ∀ depth s offset rest, s.inAtom = false → depth < s.opened.length →
    (∀ t offset, depth < t.opened.length → StaysOpen t offset rest) →
    StaysOpen s offset (text ++ rest)

theorem Sustained.of_not_mem (going : ')' ∉ cs) : Sustained cs := by
  intro depth s offset rest outside deep later
  -- Inside a name the flag may be set, so the induction is for scans in any state.
  clear outside
  induction cs generalizing s offset with
  | nil => exact later s offset deep
  | cons c cs ih =>
    rw [List.mem_cons, not_or] at going
    have opened : s.opened ≠ [] := List.length_pos_iff.1 (Nat.zero_lt_of_lt deep)
    have step := @length_step s offset c (Ne.symm going.1)
    exact ⟨opened, ih going.2 _ _ (Nat.lt_of_lt_of_le deep step)⟩

/-- A space ends any atom, so what follows it may open a list even if the scan comes to it inside
an atom. -/
theorem staysOpen_of_sustained {ts : List Tree} (each : ∀ t ∈ ts, Sustained t.chars)
    (deep : depth < s.opened.length)
    (later : ∀ t offset, depth < t.opened.length → StaysOpen t offset rest) :
    s.StaysOpen offset ((ts.flatMap fun t => ' ' :: t.chars) ++ rest) := by
  induction ts generalizing s offset with
  | nil => exact later s offset deep
  | cons t ts ih =>
    have opened : s.opened ≠ [] := List.length_pos_iff.1 (Nat.zero_lt_of_lt deep)
    have text : ((t :: ts).flatMap fun t => ' ' :: t.chars) ++ rest =
        ' ' :: (t.chars ++ ((ts.flatMap fun t => ' ' :: t.chars) ++ rest)) := by simp
    rw [List.forall_mem_cons] at each
    rw [text]
    refine ⟨opened, each.1 depth _ _ _ rfl deep fun u offset deep => ?_⟩
    exact ih each.2 deep

theorem Sustained.spaced {ts : List Tree} (each : ∀ t ∈ ts, Sustained t.chars) :
    Sustained (Tree.spaced ts) := by
  intro depth s offset rest outside deep later
  cases ts with
  | nil => exact later s offset deep
  | cons t ts =>
    rw [List.forall_mem_cons] at each
    rw [Tree.spaced, List.append_assoc]
    refine each.1 depth s offset _ outside deep fun u offset deep => ?_
    exact staysOpen_of_sustained each.2 deep later

/-- A list closes the parenthesis that it opens and none before it. -/
theorem Sustained.list {ts : List Tree} (inside : Sustained (Tree.spaced ts)) :
    Sustained (Tree.list ts).chars := by
  intro depth s offset rest outside deep later
  obtain ⟨opened, inAtom⟩ := s
  cases outside
  have nonempty : opened ≠ [] := List.length_pos_iff.1 (Nat.zero_lt_of_lt deep)
  have text : (Tree.list ts).chars ++ rest = '(' :: (Tree.spaced ts ++ (')' :: rest)) := by
    simp [Tree.chars_list]
  rw [text]
  -- The elements leave the list's own parenthesis open, which is one more than before it.
  refine ⟨nonempty, inside (depth + 1) _ _ _ rfl (Nat.succ_lt_succ deep) fun t offset deeper => ?_⟩
  have still : t.opened ≠ [] := List.length_pos_iff.1 (Nat.zero_lt_of_lt deeper)
  refine ⟨still, later _ _ ?_⟩
  rw [step_close, List.length_tail]
  omega

theorem sustained_chars {t : Tree} (plain : ∀ name ∈ t.names, ')' ∉ name.toList) :
    Sustained t.chars := by
  induction t with
  | invalid => exact .of_not_mem (by simp)
  | symbol name =>
    rw [Tree.chars_symbol]
    exact .of_not_mem (plain name (by simp [Tree.names]))
  | number value =>
    rw [Tree.chars_number]
    refine .of_not_mem fun mem => ?_
    have char := (isAtomText_pieces value).chars _ mem
    contradiction
  | list ts each =>
    refine .list (.spaced fun t mem => each t mem fun name inside => ?_)
    exact plain name (Tree.mem_names_list mem inside)

end Scan

open Scan

theorem parse_of_staysOpen {source : String} {cs : List Char} (text : source.toList = '(' :: cs)
    (stays : StaysOpen ⟨[0], false⟩ 1 cs) :
    ∃ opened < Text.utf8Size source.toList, Tree.parse source = .error (.unclosed opened) := by
  obtain ⟨top, below, course⟩ := stays.run_eq
  have start : (Reader.ofString source).unread = '(' :: cs := text
  have first : (Reader.ofString source).skipBlank = Reader.ofString source :=
    Reader.skipWhile_eq_iff.2 ⟨[], .refl _, nofun,
      start ▸ Reader.stops_isBlank_of_cons (by decide) cs⟩
  have opening : (Reader.ofString source).skipBlank.unread = '(' :: cs := first.symm ▸ start
  have scanned : (Reader.ofString source).skipBlank.scan ⟨[], false⟩ =
      (top :: below, ⟨[], 1 + Text.utf8Size cs⟩) := by
    rw [first, Reader.scan_of_open start, Reader.skipOne_of_unread start]
    exact course
  have nested := nested_of_scan opening rfl (congrArg Prod.fst scanned)
  have reading := Reader.read_list_eq_scan opening
  rw [scanned] at reading
  exact ⟨top, (nested.opens top List.mem_cons_self).lt, by rw [Tree.parse, reading.1]⟩

theorem parse_of_isPrefix {ts : List Tree} (plain : ∀ name ∈ (Tree.list ts).names, ')' ∉ name.toList)
    {source : String} (nonempty : source ≠ "") (begins : source.toList <+: (Tree.list ts).text.toList)
    (proper : source ≠ (Tree.list ts).text) :
    ∃ opened < Text.utf8Size source.toList, Tree.parse source = .error (.unclosed opened) := by
  obtain ⟨c, cs, text⟩ := List.exists_cons_of_ne_nil (mt String.toList_eq_nil_iff.1 nonempty)
  have short : source.toList ≠ '(' :: (Tree.spaced ts ++ [')']) := by
    rw [← Tree.chars_list, ← Tree.toList_text]
    exact fun same => proper (String.toList_inj.1 same)
  rw [Tree.toList_text, Tree.chars_list, text, List.cons_prefix_cons] at begins
  obtain ⟨rfl, begins⟩ := begins
  have inside : cs <+: Tree.spaced ts := by
    rw [List.prefix_concat_iff] at begins
    refine begins.resolve_left fun whole => short ?_
    rw [text, whole]
  have all : ∀ t ∈ ts, Sustained t.chars := fun t mem => sustained_chars fun name within =>
    plain name (Tree.mem_names_list mem within)
  have stays : StaysOpen ⟨[0], false⟩ 1 (Tree.spaced ts) := by
    have sustained := Sustained.spaced all 0 ⟨[0], false⟩ 1 [] rfl (by decide)
      fun t offset deep => List.length_pos_iff.1 deep
    simpa using sustained
  exact parse_of_staysOpen text (stays.of_isPrefix inside)

/-- A printed list without its end is a list that is not closed, wherever it is cut. So what a
sink keeps of it is not read as a tree, if it is a text at all. -/
theorem parse_truncated (ts : List Tree)
    (plain : ∀ name ∈ (Tree.list ts).names, ')' ∉ name.toList) :
    (∀ source : String, source ≠ "" → source.toList <+: (Tree.list ts).text.toList →
      source ≠ (Tree.list ts).text →
      ∃ opened < Text.utf8Size source.toList, Tree.parse source = .error (.unclosed opened)) ∧
    ∀ (chunk : Option Nat) (limit : Nat) (source : String), 1 ≤ limit →
      limit < (Text.utf8Bytes (Tree.list ts).text.toList).length →
      Text.utf8Bytes source.toList =
        ((Tree.list ts).writeTo (.bounded chunk (some limit))).2.kept.toList →
      ∃ fault, Tree.parse source = .error fault := by
  refine ⟨fun source nonempty begins proper => parse_of_isPrefix plain nonempty begins proper, ?_⟩
  intro chunk limit source _ short kept
  rw [Tree.writeTo, Sink.writePieces_eq] at kept
  obtain ⟨begins, bound⟩ := Sink.kept_putAll_bounded chunk limit
    (Text.utf8Bytes (Tree.list ts).text.toList)
  rw [← Tree.text] at kept
  rw [← kept] at begins bound
  by_cases empty : source = ""
  · subst empty
    exact ⟨.endOfInput, by rw [Tree.parse, Reader.read_of_end rfl]⟩
  have proper : source ≠ (Tree.list ts).text := by
    rintro rfl
    omega
  obtain ⟨opened, -, fault⟩ :=
    parse_of_isPrefix plain empty (Text.isPrefix_of_utf8Bytes begins) proper
  exact ⟨.unclosed opened, fault⟩

/-- Cut within a number and, by the sink, within a name. -/
theorem parse_truncated_in_number :
    let t : Tree := .list [.symbol "a (b", .list [.number (-3), .invalid]]
    (∀ name ∈ t.names, ')' ∉ name.toList) ∧
      "(a (b (-".toList <+: t.text.toList ∧
      (∃ opened < 8, Tree.parse "(a (b (-" = .error (.unclosed opened)) ∧
      (t.writeTo (.bounded (some 3) (some 4))).2.kept.toList = Text.utf8Bytes "(a (".toList ∧
      ∃ fault, Tree.parse "(a (" = .error fault := by
  intro t
  have text : t.text = "(a (b (-3 <invalid symtree>))" := by decide
  have plain : ∀ name ∈ t.names, ')' ∉ name.toList := by simp [t, Tree.names]
  have begins : "(a (b (-".toList <+: t.text.toList := by rw [text]; decide
  have short : 4 < (Text.utf8Bytes t.text.toList).length := by
    rw [Text.length_utf8Bytes, text]
    decide
  have kept : (t.writeTo (.bounded (some 3) (some 4))).2.kept.toList =
      Text.utf8Bytes "(a (".toList := by
    rw [Tree.writeTo, Sink.writePieces_eq]
    decide
  obtain ⟨cut, sink⟩ := parse_truncated [.symbol "a (b", .list [.number (-3), .invalid]] plain
  have first := cut "(a (b (-" (by decide) begins (by rw [text]; decide)
  exact ⟨plain, begins, first, kept, sink (some 3) 4 "(a (" (by decide) short kept.symm⟩

end Sexp
