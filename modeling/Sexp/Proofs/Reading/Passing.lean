import Sexp.Reader

/-!
# What a reader passes

`r.Passes cs s` says that the characters `cs` lie between the positions `r` and `s`. Every way of
moving forward passes something, and skipping a run passes the longest run there is
(`skipWhile_eq_iff`). `read_induction` follows the recursion of the reader: one case for each first
character of a form and of the rest of a list, and one for a fault inside an element. By it, every
attempt passes what lies before the position it ends at (`passes_attempts`).
-/

namespace Sexp

namespace Reader

/-- The characters `cs` lead from `r` to `s`. -/
structure Passes (r : Reader) (cs : List Char) (s : Reader) : Prop where
  unread : r.unread = cs ++ s.unread
  offset : s.offset = r.offset + Text.utf8Size cs

variable {r s t : Reader} {cs ds : List Char} {p : Char → Bool}

namespace Passes

theorem refl (r : Reader) : r.Passes [] r :=
  ⟨rfl, rfl⟩

theorem trans (first : r.Passes cs s) (second : s.Passes ds t) : r.Passes (cs ++ ds) t := by
  constructor
  · rw [first.unread, second.unread, List.append_assoc]
  · rw [second.offset, first.offset, Text.utf8Size_append, Nat.add_assoc]

theorem split (whole : r.Passes (cs ++ ds) t) : ∃ s, r.Passes cs s ∧ s.Passes ds t := by
  refine ⟨⟨ds ++ t.unread, r.offset + Text.utf8Size cs⟩, ⟨?_, rfl⟩, rfl, ?_⟩
  · rw [whole.unread, List.append_assoc]
  · rw [whole.offset, Text.utf8Size_append, Nat.add_assoc]

theorem unique (first : r.Passes cs s) (second : r.Passes cs t) : s = t := by
  obtain ⟨unread, offset⟩ := s
  obtain ⟨unread', offset'⟩ := t
  have same := List.append_cancel_left (first.unread.symm.trans second.unread)
  simp only [mk.injEq]
  exact ⟨same, first.offset.trans second.offset.symm⟩

/-- What is passed from the beginning of a text begins it. -/
theorem toList_eq {source : String} (passes : (ofString source).Passes cs s) :
    source.toList = cs ++ s.unread :=
  passes.unread

theorem offset_eq {source : String} (passes : (ofString source).Passes cs s) :
    s.offset = Text.utf8Size cs := by
  rw [passes.offset, ofString, Nat.zero_add]

theorem offset_le (passes : r.Passes cs s) : r.offset ≤ s.offset :=
  Nat.le.intro passes.offset.symm

theorem offset_lt (passes : r.Passes cs s) (further : s.unread.length < r.unread.length) :
    r.offset < s.offset := by
  have unread := passes.unread
  have offset := passes.offset
  cases cs with
  | nil =>
    rw [unread] at further
    exact absurd further (Nat.lt_irrefl _)
  | cons c cs =>
    have size := c.utf8Size_pos
    rw [Text.utf8Size_cons] at offset
    omega

end Passes

theorem passes_skipOne {c : Char} (h : r.unread = c :: cs) : r.Passes [c] r.skipOne := by
  rw [skipOne_of_unread h]
  exact ⟨h, by simp⟩

theorem passes_skipWhile (p : Char → Bool) (r : Reader) :
    r.Passes (r.unread.takeWhile p) (r.skipWhile p) :=
  ⟨List.takeWhile_append_dropWhile.symm, rfl⟩

theorem passes_skipAll (r : Reader) : r.Passes r.unread r.skipAll :=
  ⟨(List.append_nil _).symm, rfl⟩

theorem Passes.eq_skipAll (passes : r.Passes cs s) (all : s.unread = []) : s = r.skipAll := by
  have whole : r.unread = cs := by rw [passes.unread, all, List.append_nil]
  exact passes.unique (whole ▸ r.passes_skipAll)

theorem Passes.skipAll_eq (passes : r.Passes cs s) : s.skipAll = r.skipAll :=
  (passes.trans s.passes_skipAll).eq_skipAll rfl

/-- The text does not go on with a character of the kind. -/
def Stops (p : Char → Bool) (cs : List Char) : Prop :=
  ∀ c ∈ cs.head?, p c = false

theorem Stops.takeWhile_eq (stops : Stops p cs) : cs.takeWhile p = [] := by
  cases cs with
  | nil => rfl
  | cons c cs => exact List.takeWhile_cons_of_neg (by simp [stops c rfl])

theorem Stops.dropWhile_eq (stops : Stops p cs) : cs.dropWhile p = cs := by
  cases cs with
  | nil => rfl
  | cons c cs => exact List.dropWhile_cons_of_neg (by simp [stops c rfl])

theorem takeWhile_append_of_stops (kind : ∀ c ∈ cs, p c) (stops : Stops p ds) :
    (cs ++ ds).takeWhile p = cs := by
  rw [List.takeWhile_append_of_pos kind, stops.takeWhile_eq, List.append_nil]

/-- A run is skipped as far as it goes. -/
theorem skipWhile_eq_iff :
    r.skipWhile p = s ↔ ∃ cs, r.Passes cs s ∧ (∀ c ∈ cs, p c) ∧ Stops p s.unread := by
  constructor
  · intro skipped
    subst skipped
    have kind : ∀ c ∈ r.unread.takeWhile p, p c := List.all_eq_true.1 List.all_takeWhile
    have stops : Stops p (r.skipWhile p).unread := by
      intro c head
      obtain ⟨cs, unread⟩ := List.head?_eq_some_iff.1 head
      exact not_of_skipWhile unread
    exact ⟨_, r.passes_skipWhile p, kind, stops⟩
  · intro run
    obtain ⟨cs, passes, kind, stops⟩ := run
    have run : r.unread.takeWhile p = cs := by
      rw [passes.unread, takeWhile_append_of_stops kind stops]
    exact (run ▸ r.passes_skipWhile p).unique passes

end Reader

/-! ## Induction over reading -/

namespace Reader

theorem read_induction (form : Reader → Attempt Tree → Prop)
    (inside : Nat → Reader → Attempt (List Tree) → Prop)
    (form_end : ∀ r, r.skipBlank.unread = [] → form r ⟨.error .endOfInput, r.skipBlank⟩)
    (form_close : ∀ r cs, r.skipBlank.unread = ')' :: cs →
      form r ⟨.error (.unmatchedClose r.skipBlank.offset), r.skipBlank.skipOne⟩)
    (form_open : ∀ r cs a, r.skipBlank.unread = '(' :: cs →
      inside r.skipBlank.offset r.skipBlank.skipOne a → form r (a.map .list))
    (form_atom : ∀ r c cs, r.skipBlank.unread = c :: cs → c ≠ ')' → c ≠ '(' →
      form r ⟨.ok r.skipBlank.atom, r.skipBlank.skipAtom⟩)
    (inside_end : ∀ opened r, r.skipBlank.unread = [] →
      inside opened r ⟨.error (.unclosed opened), r.skipBlank⟩)
    (inside_close : ∀ opened r cs, r.skipBlank.unread = ')' :: cs →
      inside opened r ⟨.ok [], r.skipBlank.skipOne⟩)
    (inside_error : ∀ opened r c cs e s, r.skipBlank.unread = c :: cs → c ≠ ')' →
      form r ⟨.error e, s⟩ → inside opened r ⟨.error e, s⟩)
    (inside_form : ∀ opened r c cs tree s a, r.skipBlank.unread = c :: cs → c ≠ ')' →
      r.read = ⟨.ok tree, s⟩ → form r ⟨.ok tree, s⟩ → inside opened s a →
      inside opened r (a.map (tree :: ·)))
    (r : Reader) : form r r.read ∧ ∀ opened, inside opened r (r.elements opened) := by
  induction size : r.unread.length using Nat.strongRecOn generalizing r with
  | ind n ih =>
  subst size
  have one : form r r.read := by
    rcases r.skipBlank_cases with last | ⟨cs, close⟩ | ⟨cs, opening⟩ | ⟨c, cs, atom, close, opening⟩
    · exact read_of_end last ▸ form_end r last
    · exact read_of_close close ▸ form_close r cs close
    · have shorter := length_skipOne_lt_of_skipBlank opening
      exact read_of_open opening ▸ form_open r cs _ opening ((ih _ shorter _ rfl).2 _)
    · exact read_of_atom atom close opening ▸ form_atom r c cs atom close opening
  refine ⟨one, fun opened => ?_⟩
  match unread : r.skipBlank.unread with
  | [] => exact elements_of_end unread ▸ inside_end opened r unread
  | c :: cs =>
    by_cases close : c = ')'
    · subst close
      exact elements_of_close unread ▸ inside_close opened r cs unread
    · rw [elements_of_form unread close]
      match attempt : r.read with
      | ⟨.error e, s⟩ => exact inside_error opened r c cs e s unread close (attempt ▸ one)
      | ⟨.ok tree, s⟩ =>
        have shorter : s.unread.length < r.unread.length := by
          have advances := r.read_advances
          rw [attempt] at advances
          exact advances.lt tree rfl
        exact inside_form opened r c cs tree s _ unread close attempt (attempt ▸ one)
          ((ih _ shorter s rfl).2 opened)

variable {r s : Reader} {cs : List Char} {c : Char}

theorem passes_skipBlank (r : Reader) : r.Passes (r.unread.takeWhile Text.isBlank) r.skipBlank :=
  r.passes_skipWhile _

theorem passes_skipBlank_skipOne (unread : r.skipBlank.unread = c :: cs) :
    r.Passes (r.unread.takeWhile Text.isBlank ++ [c]) r.skipBlank.skipOne :=
  r.passes_skipBlank.trans (passes_skipOne unread)

theorem passes_attempts (r : Reader) :
    (∃ cs, r.Passes cs r.read.after) ∧ ∀ opened, ∃ cs, r.Passes cs (r.elements opened).after := by
  apply read_induction (fun r a => ∃ cs, r.Passes cs a.after)
    (fun _ r a => ∃ cs, r.Passes cs a.after)
  case form_end => exact fun r _ => ⟨_, r.passes_skipBlank⟩
  case form_close => exact fun r cs unread => ⟨_, passes_skipBlank_skipOne unread⟩
  case form_open =>
    intro r cs a unread inside
    obtain ⟨ds, inside⟩ := inside
    exact ⟨_, (passes_skipBlank_skipOne unread).trans inside⟩
  case form_atom =>
    intro r c cs unread close opening
    have atom := r.skipBlank.passes_skipWhile isAtomChar
    exact ⟨_, r.passes_skipBlank.trans atom⟩
  case inside_end => exact fun _ r _ => ⟨_, r.passes_skipBlank⟩
  case inside_close => exact fun _ r cs unread => ⟨_, passes_skipBlank_skipOne unread⟩
  case inside_error => exact fun _ _ _ _ _ _ _ _ form => form
  case inside_form =>
    intro opened r c cs tree s a unread close reading form inside
    obtain ⟨ds, first⟩ := form
    obtain ⟨es, later⟩ := inside
    exact ⟨ds ++ es, first.trans later⟩

end Reader

end Sexp
