import Mathlib.Data.List.Forall2
import Sexp.Proofs.Reading.Grammar
import Sexp.Proofs.Reading.Items

/-!
# Texts with the same layout but for their blanks

Blanks only separate. Two texts that differ in the runs of blanks between their other characters,
and have them in the same places, are read side by side: the two readers pass the same characters
but for the blanks, and come to the same trees and to faults of one kind about the same parenthesis.
-/

namespace Sexp

/-- Two texts of which the second has some blanks, one or more, for each run of blanks of the
first. -/
inductive Relaid : List Char → List Char → Prop where
  | nil : Relaid [] []
  | char : Text.isBlank c = false → Relaid cs ds → Relaid (c :: cs) (c :: ds)
  | gap : Blank v → v ≠ [] → Blank w → w ≠ [] → Reader.Stops Text.isBlank cs → Relaid cs ds →
      Relaid (v ++ cs) (w ++ ds)

def ink (cs : List Char) : List Char :=
  cs.filter (!Text.isBlank ·)

/-- In both texts the character `c` stands at the byte given, behind the same characters but for
blanks. -/
def Corresponds (cs ds : List Char) (c : Char) (o o' : Nat) : Prop :=
  ∃ before after before' after', cs = before ++ c :: after ∧ Text.utf8Size before = o ∧
    ds = before' ++ c :: after' ∧ Text.utf8Size before' = o' ∧ ink before = ink before'

/-- Equal values, or faults of one kind about corresponding parentheses of two texts. -/
inductive SameResult (cs ds : List Char) : Except ReadError α → Except ReadError α → Prop where
  | ok (x : α) : SameResult cs ds (.ok x) (.ok x)
  | endOfInput : SameResult cs ds (.error .endOfInput) (.error .endOfInput)
  | unclosed : Corresponds cs ds '(' o o' →
      SameResult cs ds (.error (.unclosed o)) (.error (.unclosed o'))
  | unmatchedClose : Corresponds cs ds ')' o o' →
      SameResult cs ds (.error (.unmatchedClose o)) (.error (.unmatchedClose o'))

variable {c : Char} {cs ds v w : List Char}

theorem ink_append (cs ds : List Char) : ink (cs ++ ds) = ink cs ++ ink ds :=
  List.filter_append cs ds

theorem Blank.ink_eq (blank : Blank w) : ink w = [] := by
  apply List.filter_eq_nil_iff.2
  intro c mem
  simp [blank c mem]

theorem SameResult.eq_endOfInput {result : Except ReadError α}
    (same : SameResult cs ds result (.error .endOfInput)) : result = .error .endOfInput := by
  cases same
  rfl

namespace Relaid

theorem stops (relaid : Relaid cs ds) (start : Reader.Stops Text.isBlank cs) :
    Reader.Stops Text.isBlank ds := by
  cases relaid with
  | nil => exact start
  | char nonblank later => exact Reader.stops_isBlank_of_cons nonblank _
  | gap blank apart =>
    obtain ⟨c, v, rfl⟩ := List.exists_cons_of_ne_nil apart
    have char := start c rfl
    rw [blank c List.mem_cons_self] at char
    contradiction

theorem eq_nil (relaid : Relaid [] ds) : ds = [] := by
  generalize first : [] = cs at relaid
  cases relaid with
  | nil => rfl
  | char => contradiction
  | gap _ apart => exact absurd (List.append_eq_nil_iff.1 first.symm).1 apart

theorem exists_cons (relaid : Relaid (c :: cs) ds) (nonblank : Text.isBlank c = false) :
    ∃ es, ds = c :: es ∧ Relaid cs es := by
  generalize first : c :: cs = whole at relaid
  cases relaid with
  | nil => contradiction
  | char _ later =>
    obtain ⟨rfl, rfl⟩ := List.cons.inj first
    exact ⟨_, rfl, later⟩
  | gap blank apart =>
    obtain ⟨d, v, rfl⟩ := List.exists_cons_of_ne_nil apart
    obtain ⟨rfl, -⟩ := List.cons.inj first
    rw [blank c List.mem_cons_self] at nonblank
    contradiction

theorem dropWhile_isBlank (relaid : Relaid cs ds) :
    Relaid (cs.dropWhile Text.isBlank) (ds.dropWhile Text.isBlank) := by
  cases relaid with
  | nil => exact .nil
  | char nonblank later =>
    have here : ∀ cs, Reader.Stops Text.isBlank (_ :: cs) := Reader.stops_isBlank_of_cons nonblank
    rw [(here _).dropWhile_eq, (here _).dropWhile_eq]
    exact .char nonblank later
  | gap blank _ blank' _ start later =>
    rw [List.dropWhile_append_of_pos blank, List.dropWhile_append_of_pos blank',
      start.dropWhile_eq, (later.stops start).dropWhile_eq]
    exact later

theorem atom (relaid : Relaid cs ds) :
    cs.takeWhile isAtomChar = ds.takeWhile isAtomChar ∧
      Relaid (cs.dropWhile isAtomChar) (ds.dropWhile isAtomChar) := by
  induction relaid with
  | nil => exact ⟨rfl, .nil⟩
  | @char c cs ds nonblank later ih =>
    by_cases inside : isAtomChar c
    · rw [List.takeWhile_cons_of_pos inside, List.takeWhile_cons_of_pos inside, ih.1,
        List.dropWhile_cons_of_pos inside, List.dropWhile_cons_of_pos inside]
      exact ⟨rfl, ih.2⟩
    · rw [List.takeWhile_cons_of_neg inside, List.takeWhile_cons_of_neg inside,
        List.dropWhile_cons_of_neg inside, List.dropWhile_cons_of_neg inside]
      exact ⟨rfl, .char nonblank later⟩
  | gap blank apart blank' apart' start later =>
    have here := blank.stops apart
    have there := blank'.stops apart'
    rw [(here _).takeWhile_eq, (there _).takeWhile_eq, (here _).dropWhile_eq,
      (there _).dropWhile_eq]
    exact ⟨rfl, .gap blank apart blank' apart' start later⟩

end Relaid

namespace Reader

variable {source source' : String} {r s : Reader}

/-- Positions in two texts behind the same characters but for blanks, from which the texts go on
alike. -/
structure Abreast (source source' : String) (r s : Reader) : Prop where
  behind : ∃ cs ds, (ofString source).Passes cs r ∧ (ofString source').Passes ds s ∧ ink cs = ink ds
  ahead : Relaid r.unread s.unread

theorem Abreast.passes (abreast : Abreast source source' r s) {r' s' : Reader}
    (first : r.Passes v r') (second : s.Passes w s') (same : ink v = ink w)
    (ahead : Relaid r'.unread s'.unread) : Abreast source source' r' s' := by
  obtain ⟨⟨cs, ds, left, right, ink⟩, -⟩ := abreast
  refine ⟨⟨_, _, left.trans first, right.trans second, ?_⟩, ahead⟩
  rw [ink_append, ink_append, ink, same]

theorem Abreast.skipBlank (abreast : Abreast source source' r s) :
    Abreast source source' r.skipBlank s.skipBlank := by
  refine abreast.passes r.passes_skipBlank s.passes_skipBlank ?_ abreast.ahead.dropWhile_isBlank
  rw [(blank_takeWhile _).ink_eq, (blank_takeWhile _).ink_eq]

theorem Abreast.skipAtom (abreast : Abreast source source' r s) :
    r.atom = s.atom ∧ Abreast source source' r.skipAtom s.skipAtom := by
  obtain ⟨same, ahead⟩ := abreast.ahead.atom
  constructor
  · rw [atom, atom, same]
  · exact abreast.passes (r.passes_skipWhile _) (s.passes_skipWhile _) (by rw [same]) ahead

theorem Abreast.skipOne (abreast : Abreast source source' r s) (unread : r.unread = c :: cs)
    (nonblank : Text.isBlank c = false) :
    ∃ ds, s.unread = c :: ds ∧ Abreast source source' r.skipOne s.skipOne ∧
      Corresponds source.toList source'.toList c r.offset s.offset := by
  obtain ⟨before, before', left, right, same⟩ := abreast.behind
  have ahead := abreast.ahead
  rw [unread] at ahead
  obtain ⟨ds, unread', later⟩ := ahead.exists_cons nonblank
  refine ⟨ds, unread', ?_, before, cs, before', ds, ?_, ?_, ?_, ?_, same⟩
  · refine abreast.passes (passes_skipOne unread) (passes_skipOne unread') rfl ?_
    rw [skipOne_of_unread unread, skipOne_of_unread unread']
    exact later
  · rw [left.toList_eq, unread]
  · exact left.offset_eq.symm
  · rw [right.toList_eq, unread']
  · exact right.offset_eq.symm

theorem Abreast.skipBlank_nil (abreast : Abreast source source' r s)
    (unread : r.skipBlank.unread = []) : s.skipBlank.unread = [] := by
  have ahead := abreast.skipBlank.ahead
  rw [unread] at ahead
  exact ahead.eq_nil

/-- Attempts that come to the same and end at positions abreast of each other. -/
structure Alike (source source' : String) (a b : Attempt α) : Prop where
  result : SameResult source.toList source'.toList a.result b.result
  after : Abreast source source' a.after b.after

theorem Alike.map {a b : Attempt α} (alike : Alike source source' a b) (f : α → β) :
    Alike source source' (a.map f) (b.map f) := by
  obtain ⟨result, s⟩ := a
  obtain ⟨result', s'⟩ := b
  obtain ⟨same, after⟩ := alike
  refine ⟨?_, after⟩
  cases same with
  | ok x => exact .ok (f x)
  | endOfInput => exact .endOfInput
  | unclosed place => exact .unclosed place
  | unmatchedClose place => exact .unmatchedClose place

theorem Alike.error {e : ReadError} {b : Attempt α} (alike : Alike source source' ⟨.error e, r⟩ b)
    (next : α → Reader → Attempt β) :
    Alike source source' ⟨.error e, r⟩ (b.andThen next) := by
  obtain ⟨result, s⟩ := b
  obtain ⟨same, after⟩ := alike
  cases same with
  | endOfInput => exact ⟨.endOfInput, after⟩
  | unclosed place => exact ⟨.unclosed place, after⟩
  | unmatchedClose place => exact ⟨.unmatchedClose place, after⟩

theorem Alike.exists_ok {x : α} {b : Attempt α} (alike : Alike source source' ⟨.ok x, r⟩ b) :
    ∃ s, b = ⟨.ok x, s⟩ ∧ Abreast source source' r s := by
  obtain ⟨result, s⟩ := b
  obtain ⟨same, after⟩ := alike
  cases same with
  | ok => exact ⟨s, rfl, after⟩

theorem attempts_alike (r : Reader) :
    (∀ s, Abreast source source' r s → Alike source source' r.read s.read) ∧
      ∀ opened opened' s, Abreast source source' r s →
        Corresponds source.toList source'.toList '(' opened opened' →
        Alike source source' (r.elements opened) (s.elements opened') := by
  apply read_induction (fun r a => ∀ s, Abreast source source' r s → Alike source source' a s.read)
    (fun opened r a => ∀ opened' s, Abreast source source' r s →
      Corresponds source.toList source'.toList '(' opened opened' →
      Alike source source' a (s.elements opened'))
  case form_end =>
    intro r unread s abreast
    rw [read_of_end (abreast.skipBlank_nil unread)]
    exact ⟨.endOfInput, abreast.skipBlank⟩
  case form_close =>
    intro r cs unread s abreast
    obtain ⟨ds, unread', after, place⟩ := abreast.skipBlank.skipOne unread (by decide)
    rw [read_of_close unread']
    exact ⟨.unmatchedClose place, after⟩
  case form_open =>
    intro r cs a unread inside s abreast
    obtain ⟨ds, unread', after, place⟩ := abreast.skipBlank.skipOne unread (by decide)
    rw [read_of_open unread']
    exact (inside _ _ after place).map Tree.list
  case form_atom =>
    intro r c cs unread close opening s abreast
    obtain ⟨ds, unread', -, -⟩ :=
      abreast.skipBlank.skipOne unread (not_isBlank_of_skipBlank unread)
    obtain ⟨same, after⟩ := abreast.skipBlank.skipAtom
    rw [read_of_atom unread' close opening, same]
    exact ⟨.ok _, after⟩
  case inside_end =>
    intro opened r unread opened' s abreast place
    rw [elements_of_end (abreast.skipBlank_nil unread)]
    exact ⟨.unclosed place, abreast.skipBlank⟩
  case inside_close =>
    intro opened r cs unread opened' s abreast place
    obtain ⟨ds, unread', after, -⟩ := abreast.skipBlank.skipOne unread (by decide)
    rw [elements_of_close unread']
    exact ⟨.ok _, after⟩
  case inside_error =>
    intro opened r c cs e t unread close form opened' s abreast place
    obtain ⟨ds, unread', -, -⟩ :=
      abreast.skipBlank.skipOne unread (not_isBlank_of_skipBlank unread)
    rw [elements_of_form unread' close]
    exact (form s abreast).error _
  case inside_form =>
    intro opened r c cs tree t a unread close reading form later opened' s abreast place
    obtain ⟨ds, unread', -, -⟩ :=
      abreast.skipBlank.skipOne unread (not_isBlank_of_skipBlank unread)
    obtain ⟨t', reading', after⟩ := (form s abreast).exists_ok
    rw [elements_of_form unread' close, reading']
    exact (later opened' t' after place).map (tree :: ·)

/-- Readers abreast of each other yield the same items but for the bytes of the faults. -/
theorem items_abreast (r s : Reader) (abreast : Abreast source source' r s) :
    List.Forall₂ (SameResult source.toList source'.toList) r.items s.items := by
  induction r using items_induction generalizing s with
  | last r unread =>
    rw [items_of_end unread, items_of_end (abreast.skipBlank_nil unread)]
    exact .nil
  | more r more ih =>
    have alike := (attempts_alike r).1 s abreast
    have more' : s.read.result ≠ .error .endOfInput := by
      intro last
      have same := alike.result
      rw [last] at same
      exact more same.eq_endOfInput
    rw [items_of_read more, items_of_read more']
    exact .cons alike.result (ih _ alike.after)

end Reader

/-- With other blanks in the place of each run of blanks, a text has as many items as before: the
same trees, and faults of the same kind about the same parentheses. -/
theorem items_relaid {source source' : String} (relaid : Relaid source.toList source'.toList) :
    List.Forall₂ (SameResult source.toList source'.toList)
      (Reader.ofString source).items (Reader.ofString source').items :=
  Reader.items_abreast _ _ ⟨⟨[], [], .refl _, .refl _, rfl⟩, relaid⟩

/-- A space gives way to a wide blank and a line break, and so the parenthesis stands three bytes
further on. -/
theorem items_relaid_wide_blank :
    Relaid "x )".toList "x\u2003\n)".toList ∧
      (Reader.ofString "x )").items = [.ok (.symbol "x"), .error (.unmatchedClose 2)] ∧
      (Reader.ofString "x\u2003\n)").items = [.ok (.symbol "x"), .error (.unmatchedClose 5)] ∧
      Corresponds "x )".toList "x\u2003\n)".toList ')' 2 5 := by
  have close : Relaid [')'] [')'] := .char (by decide) .nil
  have gap : Relaid ([' '] ++ [')']) (['\u2003', '\n'] ++ [')']) := by
    refine .gap ?_ (List.cons_ne_nil _ _) ?_ (List.cons_ne_nil _ _) ?_ close
    · exact .of_all (by decide)
    · exact .of_all (by decide)
    · exact Reader.stops_isBlank_of_cons (by decide) []
  have relaid : Relaid "x )".toList "x\u2003\n)".toList := .char (by decide) gap
  have first : (Reader.ofString "x )").items = [.ok (.symbol "x"), .error (.unmatchedClose 2)] := by
    have atom : (Reader.ofString "x )").read = ⟨.ok (.symbol "x"), ⟨[' ', ')'], 1⟩⟩ :=
      Reader.read_of_atom rfl (by decide) (by decide)
    have stray : Reader.read ⟨[' ', ')'], 1⟩ = ⟨.error (.unmatchedClose 2), ⟨[], 3⟩⟩ :=
      Reader.read_of_close rfl
    rw [Reader.items_of_read_eq atom nofun, Reader.items_of_read_eq stray nofun,
      Reader.items_of_end rfl]
  have second : (Reader.ofString "x\u2003\n)").items =
      [.ok (.symbol "x"), .error (.unmatchedClose 5)] := by
    have atom : (Reader.ofString "x\u2003\n)").read =
        ⟨.ok (.symbol "x"), ⟨['\u2003', '\n', ')'], 1⟩⟩ :=
      Reader.read_of_atom rfl (by decide) (by decide)
    have stray : Reader.read ⟨['\u2003', '\n', ')'], 1⟩ =
        ⟨.error (.unmatchedClose 5), ⟨[], 6⟩⟩ := Reader.read_of_close rfl
    rw [Reader.items_of_read_eq atom nofun, Reader.items_of_read_eq stray nofun,
      Reader.items_of_end rfl]
  have same := items_relaid relaid
  rw [first, second] at same
  rw [List.forall₂_cons, List.forall₂_cons] at same
  obtain ⟨-, fault, -⟩ := same
  cases fault with
  | unmatchedClose place => exact ⟨relaid, first, second, place⟩

end Sexp
