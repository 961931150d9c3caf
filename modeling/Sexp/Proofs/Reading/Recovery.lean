import Sexp.Proofs.Reading.Grammar
import Sexp.Proofs.Reading.Items

/-!
# Recovery from stray parentheses

A stray `)` is passed over and leaves no trace but its own fault. With a space in its place the
text is read as the same forms, and a list that is not closed is still blamed on the same byte.
-/

namespace Sexp

def isStray : Except ReadError Tree → Bool
  | .error (.unmatchedClose _) => true
  | .error .endOfInput | .error (.unclosed _) | .ok _ => false

/-- The bytes of the stray parentheses that items report. -/
def strays (items : List (Except ReadError Tree)) : List Nat :=
  items.filterMap fun
    | .error (.unmatchedClose offset) => some offset
    | .error .endOfInput | .error (.unclosed _) | .ok _ => none

/-- Characters of which the first stands at byte `start`, with a space for each `)` that stands at
one of the given bytes. -/
def spaceAt (offsets : List Nat) (start : Nat) : List Char → List Char
  | [] => []
  | c :: cs =>
    (if c = ')' ∧ start ∈ offsets then ' ' else c) :: spaceAt offsets (start + c.utf8Size) cs

theorem strays_cons_close (offset : Nat) (items : List (Except ReadError Tree)) :
    strays (.error (.unmatchedClose offset) :: items) = offset :: strays items := rfl

variable {offsets : List Nat} {start : Nat} {c : Char} {cs ds : List Char}

theorem spaceAt_append (cs ds : List Char) :
    spaceAt offsets start (cs ++ ds) =
      spaceAt offsets start cs ++ spaceAt offsets (start + Text.utf8Size cs) ds := by
  induction cs generalizing start with
  | nil => rfl
  | cons c cs ih => simp [spaceAt, ih, Nat.add_assoc]

/-- A space takes the one byte of the parenthesis, so all later bytes stay where they are. -/
theorem utf8Size_spaceAt (cs : List Char) :
    Text.utf8Size (spaceAt offsets start cs) = Text.utf8Size cs := by
  induction cs generalizing start with
  | nil => rfl
  | cons c cs ih =>
    have size : (if c = ')' ∧ start ∈ offsets then ' ' else c).utf8Size = c.utf8Size := by
      split
      next stray => rw [stray.1]; decide
      next => rfl
    rw [spaceAt, Text.utf8Size_cons, Text.utf8Size_cons, size, ih]

theorem mem_spaceAt (mem : c ∈ spaceAt offsets start cs) : c = ' ' ∨ c ∈ cs := by
  induction cs generalizing start with
  | nil => contradiction
  | cons d cs ih =>
    rcases List.mem_cons.1 mem with rfl | later
    · split
      · exact .inl rfl
      · exact .inr List.mem_cons_self
    · exact (ih later).imp_right (List.mem_cons_of_mem d)

theorem spaceAt_of_outside (outside : ∀ o ∈ offsets, start ≤ o → start + Text.utf8Size cs ≤ o) :
    spaceAt offsets start cs = cs := by
  induction cs generalizing start with
  | nil => rfl
  | cons c cs ih =>
    have size := c.utf8Size_pos
    have here : start ∉ offsets := by
      intro mem
      have beyond := outside start mem (Nat.le_refl start)
      rw [Text.utf8Size_cons] at beyond
      omega
    have later : spaceAt offsets (start + c.utf8Size) cs = cs := by
      apply ih
      intro o mem le
      have beyond := outside o mem (by omega)
      rw [Text.utf8Size_cons] at beyond
      omega
    rw [spaceAt, if_neg fun stray => here stray.2, later]

theorem Blank.spaceAt (blank : Blank cs) (offsets : List Nat) (start : Nat) :
    Blank (spaceAt offsets start cs) := by
  intro c mem
  rcases mem_spaceAt mem with rfl | old
  · decide
  · exact blank c old

namespace Reader

variable {r s : Reader}

/-- The position in the text with a space for each `)` at one of the given bytes. -/
def spaced (offsets : List Nat) (r : Reader) : Reader :=
  ⟨spaceAt offsets r.offset r.unread, r.offset⟩

theorem Passes.spaced (passes : r.Passes cs s) (offsets : List Nat) :
    (r.spaced offsets).Passes (spaceAt offsets r.offset cs) (s.spaced offsets) := by
  constructor
  · change spaceAt offsets r.offset r.unread = _ ++ spaceAt offsets s.offset s.unread
    rw [passes.unread, spaceAt_append, passes.offset]
  · change s.offset = r.offset + _
    rw [utf8Size_spaceAt, passes.offset]

theorem Stops.spaceAt (stops : Stops isAtomChar cs) :
    Stops isAtomChar (spaceAt offsets start cs) := by
  cases cs with
  | nil => exact stops
  | cons c cs =>
    intro d head
    obtain rfl := Option.some.inj head
    split
    · decide
    · exact stops c rfl

theorem exists_close_of_mem_strays {offset : Nat} (mem : offset ∈ strays r.items) :
    ∃ cs s ds, r.Passes cs s ∧ s.unread = ')' :: ds ∧ s.offset = offset := by
  induction r using item_induction with
  | last r unread =>
    rw [items_of_end unread] at mem
    contradiction
  | tree r t form ih =>
    rw [items_of_tree form] at mem
    obtain ⟨cs, first⟩ := (passes_attempts r).1
    obtain ⟨ds, s, es, later, close⟩ := ih mem
    exact ⟨_, s, es, first.trans later, close⟩
  | close r cs close ih =>
    rw [items_of_close close, strays_cons_close] at mem
    rcases List.mem_cons.1 mem with rfl | mem
    · exact ⟨_, r.skipBlank, cs, r.passes_skipBlank, close, rfl⟩
    · obtain ⟨ds, s, es, later, further⟩ := ih mem
      exact ⟨_, s, es, (passes_skipBlank_skipOne close).trans later, further⟩
  | unclosed r opened fault =>
    rw [items_of_unclosed fault] at mem
    contradiction

theorem le_of_mem_strays {offset : Nat} (mem : offset ∈ strays r.items) : r.offset ≤ offset := by
  obtain ⟨_, _, _, passes, -, rfl⟩ := exists_close_of_mem_strays mem
  exact passes.offset_le

/-- What lies before the first stray parenthesis is left as it is. -/
theorem Passes.spaced_of_exactly (passes : r.Passes cs s)
    (exactly : ∀ o, r.offset ≤ o → (o ∈ offsets ↔ o ∈ strays s.items)) :
    (r.spaced offsets).Passes cs (s.spaced offsets) := by
  have same : spaceAt offsets r.offset cs = cs := by
    apply spaceAt_of_outside
    intro o mem le
    rw [← passes.offset]
    exact le_of_mem_strays ((exactly o le).1 mem)
  have spaced := passes.spaced offsets
  rwa [same] at spaced

theorem items_spaced_of_close (close : r.skipBlank.unread = ')' :: cs)
    (stray : r.skipBlank.offset ∈ offsets) :
    (r.spaced offsets).items = (r.skipBlank.skipOne.spaced offsets).items := by
  have passes := (passes_skipBlank_skipOne close).spaced offsets
  refine items_of_blank ?_ passes
  have skipped : Blank (spaceAt offsets r.offset (r.unread.takeWhile Text.isBlank)) :=
    (blank_takeWhile r.unread).spaceAt offsets r.offset
  rw [spaceAt_append, ← r.passes_skipBlank.offset, spaceAt, if_pos ⟨rfl, stray⟩]
  have space : Blank [' '] := .of_all (by decide)
  exact skipped.append space

theorem items_spaced_of_end (unread : r.skipBlank.unread = []) :
    (r.spaced offsets).items = [] := by
  have passes := r.passes_skipBlank.spaced offsets
  have blank := (blank_takeWhile r.unread).spaceAt offsets r.offset
  have last : r.skipBlank.spaced offsets = r.skipBlank := by
    rw [spaced, unread, spaceAt, ← unread]
  rw [items_of_blank blank passes, last]
  apply items_of_end
  rw [skipBlank, skipWhile, unread, List.dropWhile_nil]

theorem spaced_of_outside (outside : ∀ o ∈ offsets, ¬r.offset ≤ o) : r.spaced offsets = r := by
  have text : spaceAt offsets r.offset r.unread = r.unread :=
    spaceAt_of_outside fun o mem le => absurd le (outside o mem)
  rw [spaced, text]

/-- A space for each stray parenthesis that lies ahead takes away its fault and nothing else. -/
theorem items_spaced (exactly : ∀ o, r.offset ≤ o → (o ∈ offsets ↔ o ∈ strays r.items)) :
    (r.spaced offsets).items = r.items.filter (!isStray ·) := by
  induction r using item_induction with
  | last r unread => rw [items_of_end unread, items_spaced_of_end unread, List.filter_nil]
  | tree r t form ih =>
    obtain ⟨w, f, passes, blank, spelled, stops⟩ := r.spells_of_attempts.1 t form
    rw [items_of_tree form] at exactly
    have step : (r.spaced offsets).read = ⟨.ok t, r.read.after.spaced offsets⟩ :=
      spelled.read_eq blank (passes.spaced_of_exactly exactly) fun text => (stops text).spaceAt
    have later := ih fun o le => exactly o (Nat.le_trans passes.offset_le le)
    rw [items_of_read_eq step nofun, later, items_of_tree form]
    rfl
  | close r cs close ih =>
    rw [items_of_close close, strays_cons_close] at exactly
    have start := r.passes_skipBlank.offset_le
    have stray : r.skipBlank.offset ∈ offsets := (exactly _ start).2 List.mem_cons_self
    have further : r.skipBlank.offset < r.skipBlank.skipOne.offset := by
      rw [skipOne_of_unread close]
      exact Nat.lt_add_one _
    have later := ih fun o le => by
      rw [exactly o (by omega), List.mem_cons, or_iff_right (by omega)]
    rw [items_spaced_of_close close stray, later, items_of_close close]
    rfl
  | unclosed r opened fault =>
    rw [items_of_unclosed fault] at exactly
    have outside : ∀ o ∈ offsets, ¬r.offset ≤ o := by
      intro o mem le
      exact absurd ((exactly o le).1 mem) List.not_mem_nil
    rw [spaced_of_outside outside, items_of_unclosed fault]
    rfl

end Reader

def withoutStrays (source : String) : String :=
  .ofList (spaceAt (strays (Reader.ofString source).items) 0 source.toList)

/-- Each stray parenthesis that is reported is a `)` of the text. With a space for each of them the
items of the text are the same but for these faults: the same forms in the same order, and the same
fault if the text ends within a list. -/
theorem items_withoutStrays (source : String) :
    (∀ offset ∈ strays (Reader.ofString source).items, ∃ before after,
      source.toList = before ++ ')' :: after ∧ offset = Text.utf8Size before) ∧
    (Reader.ofString (withoutStrays source)).items =
      (Reader.ofString source).items.filter (!isStray ·) := by
  constructor
  · intro offset mem
    obtain ⟨before, s, after, passes, close, rfl⟩ := Reader.exists_close_of_mem_strays mem
    refine ⟨before, after, ?_, passes.offset_eq⟩
    rw [passes.toList_eq, close]
  · have spaced : Reader.ofString (withoutStrays source) =
        (Reader.ofString source).spaced (strays (Reader.ofString source).items) := by
      simp only [Reader.ofString, withoutStrays, Reader.spaced, String.toList_ofList]
    rw [spaced]
    exact Reader.items_spaced fun _ _ => Iff.rfl

end Sexp
