import Sexp.Text.Characters
import Sexp.Text.Encoding
import Sexp.Tree

/-!
# Reading forms from a text

A reader is a position in a text: the characters not yet read and the number of bytes before
them. It moves forward by whole characters only, so what it has passed and what is unread always
make up the text again.

A form is an atom or a parenthesised list of forms. An atom is a longest run of characters that
are neither blank nor `)`, so a `(` inside it is part of it; it is a number if its whole text is
one, and a symbol otherwise. Blanks before a form are skipped.

Reading is one recursion over forms and the elements of lists. What it does is said by `read_eq`
and `elements_eq`, and for each first character by the lemmas after them; nothing else about the
recursion is needed later.
-/

namespace Sexp

/-! ### Faults -/

/-- Why no form could be read. Only `endOfInput` is a clean end; the others name the byte of the
parenthesis to blame. -/
inductive ReadError where
  | endOfInput
  | unclosed (opened : Nat)
  | unmatchedClose (offset : Nat)
deriving DecidableEq

namespace ReadError

def message : ReadError → String
  | .endOfInput => "end of input"
  | .unclosed opened =>
    s!"unexpected end of input: list opened at byte {opened} is not closed"
  | .unmatchedClose offset => s!"unexpected `)` at byte {offset}"

/-- Nothing was left to read. -/
def isCleanEnd : ReadError → Bool
  | .endOfInput => true
  | .unclosed _ | .unmatchedClose _ => false

end ReadError

/-! ### Positions -/

structure Reader where
  unread : List Char
  offset : Nat
deriving DecidableEq

namespace Reader

def ofString (source : String) : Reader :=
  ⟨source.toList, 0⟩

def rest (r : Reader) : String :=
  .ofList r.unread

/-- The position after one more character; at the end of the text, the same position. -/
def skipOne (r : Reader) : Reader :=
  ⟨r.unread.drop 1, r.offset + Text.utf8Size (r.unread.take 1)⟩

/-- The position of the first character without the property. -/
def skipWhile (p : Char → Bool) (r : Reader) : Reader :=
  ⟨r.unread.dropWhile p, r.offset + Text.utf8Size (r.unread.takeWhile p)⟩

def skipBlank (r : Reader) : Reader :=
  r.skipWhile Text.isBlank

def skipAll (r : Reader) : Reader :=
  ⟨[], r.offset + Text.utf8Size r.unread⟩

@[simp] theorem skipOne_cons (c : Char) (cs : List Char) (offset : Nat) :
    skipOne ⟨c :: cs, offset⟩ = ⟨cs, offset + c.utf8Size⟩ := by
  simp [skipOne]

theorem skipOne_of_unread {r : Reader} {c : Char} {cs : List Char} (h : r.unread = c :: cs) :
    r.skipOne = ⟨cs, r.offset + c.utf8Size⟩ := by
  simp [skipOne, h]

theorem length_skipWhile_le (p : Char → Bool) (r : Reader) :
    (r.skipWhile p).unread.length ≤ r.unread.length :=
  (List.dropWhile_suffix p).length_le

theorem length_skipBlank_le (r : Reader) : r.skipBlank.unread.length ≤ r.unread.length :=
  length_skipWhile_le _ r

theorem length_skipOne_lt {r : Reader} {c : Char} {cs : List Char} (h : r.unread = c :: cs) :
    r.skipOne.unread.length < r.unread.length := by
  simp [skipOne, h]

theorem length_skipWhile_lt {p : Char → Bool} {r : Reader} {c : Char} {cs : List Char}
    (h : r.unread = c :: cs) (hc : p c) : (r.skipWhile p).unread.length < r.unread.length := by
  have := (List.dropWhile_suffix p (l := cs)).length_le
  simp [skipWhile, h, hc]; omega

/-- What a skipped run leaves begins, if at all, with a character without the property. -/
theorem not_of_skipWhile {p : Char → Bool} {r : Reader} {c : Char} {cs : List Char}
    (h : (r.skipWhile p).unread = c :: cs) : p c = false := by
  have := List.head?_dropWhile_not p r.unread
  simp_all [skipWhile]

end Reader

/-! ### Forms -/

def isAtomChar (c : Char) : Bool :=
  !Text.isBlank c && c != ')'

theorem isAtomChar_iff {c : Char} : isAtomChar c ↔ Text.isBlank c = false ∧ c ≠ ')' := by
  simp [isAtomChar]

theorem isAtomChar_eq_false_iff {c : Char} : isAtomChar c = false ↔ Text.isBlank c ∨ c = ')' := by
  simp only [isAtomChar, Bool.and_eq_false_iff, Bool.not_eq_false', bne_eq_false_iff_eq]

def Tree.ofAtom (cs : List Char) : Tree :=
  match Text.Decimal.int64? cs with
  | some value => .number value
  | none => .symbol (.ofList cs)

namespace Reader

def atom (r : Reader) : Tree :=
  .ofAtom (r.unread.takeWhile isAtomChar)

def skipAtom (r : Reader) : Reader :=
  r.skipWhile isAtomChar

theorem not_isBlank_of_skipBlank {r : Reader} {c : Char} {cs : List Char}
    (h : r.skipBlank.unread = c :: cs) : Text.isBlank c = false :=
  not_of_skipWhile h

theorem length_skipOne_lt_of_skipBlank {r : Reader} {c : Char} {cs : List Char}
    (h : r.skipBlank.unread = c :: cs) :
    r.skipBlank.skipOne.unread.length < r.unread.length :=
  Nat.lt_of_lt_of_le (length_skipOne_lt h) r.length_skipBlank_le

theorem length_skipAtom_lt_of_skipBlank {r : Reader} {c : Char} {cs : List Char}
    (h : r.skipBlank.unread = c :: cs) (close : c ≠ ')') :
    r.skipBlank.skipAtom.unread.length < r.unread.length :=
  Nat.lt_of_lt_of_le
    (length_skipWhile_lt h (isAtomChar_iff.2 ⟨not_isBlank_of_skipBlank h, close⟩))
    r.length_skipBlank_le

theorem skipBlank_cases (r : Reader) :
    r.skipBlank.unread = [] ∨ (∃ cs, r.skipBlank.unread = ')' :: cs) ∨
      (∃ cs, r.skipBlank.unread = '(' :: cs) ∨
      ∃ c cs, r.skipBlank.unread = c :: cs ∧ c ≠ ')' ∧ c ≠ '(' := by
  cases unread : r.skipBlank.unread with
  | nil => exact .inl rfl
  | cons c cs =>
    by_cases close : c = ')'
    · exact .inr (.inl ⟨cs, by rw [close]⟩)
    · by_cases opening : c = '('
      · exact .inr (.inr (.inl ⟨cs, by rw [opening]⟩))
      · exact .inr (.inr (.inr ⟨c, cs, rfl, close, opening⟩))

/-- One attempt to read: what came of it and the position after it. -/
structure Attempt (α : Type) where
  result : Except ReadError α
  after : Reader

abbrev Reading := Attempt Tree

namespace Attempt

def map (f : α → β) (a : Attempt α) : Attempt β :=
  ⟨a.result.map f, a.after⟩

/-- Goes on from the position reached, unless the attempt has failed. -/
def andThen (a : Attempt α) (next : α → Reader → Attempt β) : Attempt β :=
  match a.result with
  | .ok x => next x a.after
  | .error e => ⟨.error e, a.after⟩

/-- The attempt ends no earlier than at `r`, and further on if it succeeds. -/
structure Advances (r : Reader) (a : Attempt α) : Prop where
  le : a.after.unread.length ≤ r.unread.length
  lt : ∀ x, a.result = .ok x → a.after.unread.length < r.unread.length

theorem Advances.of_lt {r : Reader} {a : Attempt α}
    (h : a.after.unread.length < r.unread.length) : a.Advances r :=
  ⟨Nat.le_of_lt h, fun _ _ => h⟩

theorem Advances.of_error {r : Reader} {e : ReadError} {s : Reader}
    (h : s.unread.length ≤ r.unread.length) : (⟨.error e, s⟩ : Attempt α).Advances r :=
  ⟨h, nofun⟩

end Attempt

mutual

/-- Reads one form. A stray `)` is passed over. -/
def readAdvancing (r : Reader) : { a : Attempt Tree // a.Advances r } :=
  match h : r.skipBlank.unread with
  | [] => ⟨⟨.error .endOfInput, r.skipBlank⟩, .of_error r.length_skipBlank_le⟩
  | c :: cs =>
    if close : c = ')' then
      ⟨⟨.error (.unmatchedClose r.skipBlank.offset), r.skipBlank.skipOne⟩,
        .of_lt (length_skipOne_lt_of_skipBlank h)⟩
    else if c = '(' then
      have shorter := length_skipOne_lt_of_skipBlank h
      let inside := elementsAdvancing r.skipBlank.offset r.skipBlank.skipOne
      ⟨inside.val.map .list, .of_lt (Nat.lt_of_le_of_lt inside.property.le shorter)⟩
    else ⟨⟨.ok r.skipBlank.atom, r.skipBlank.skipAtom⟩,
      .of_lt (length_skipAtom_lt_of_skipBlank h close)⟩
termination_by (r.unread.length, 0)

/-- Reads the forms up to the parenthesis that closes the list opened at byte `opened`. -/
def elementsAdvancing (opened : Nat) (r : Reader) : { a : Attempt (List Tree) // a.Advances r } :=
  match h : r.skipBlank.unread with
  | [] => ⟨⟨.error (.unclosed opened), r.skipBlank⟩, .of_error r.length_skipBlank_le⟩
  | c :: cs =>
    if c = ')' then
      ⟨⟨.ok [], r.skipBlank.skipOne⟩, .of_lt (length_skipOne_lt_of_skipBlank h)⟩
    else
      match readAdvancing r with
      | ⟨⟨.error e, s⟩, further⟩ => ⟨⟨.error e, s⟩, .of_error further.le⟩
      | ⟨⟨.ok tree, s⟩, further⟩ =>
        have shorter := further.lt tree rfl
        let later := elementsAdvancing opened s
        ⟨later.val.map (tree :: ·), .of_lt (Nat.lt_of_le_of_lt later.property.le shorter)⟩
termination_by (r.unread.length, 1)

end

/-- Reads one form. A stray `)` is passed over; a list that is not closed takes the whole text. -/
def read (r : Reader) : Reading :=
  r.readAdvancing.val

/-- The elements of the list opened at byte `opened`, from `r` to its closing parenthesis. -/
def elements (opened : Nat) (r : Reader) : Attempt (List Tree) :=
  (r.elementsAdvancing opened).val

/-- What is read, by the first character that is not blank. -/
theorem read_eq (r : Reader) : r.read =
    match r.skipBlank.unread with
    | [] => ⟨.error .endOfInput, r.skipBlank⟩
    | c :: _ =>
      if c = ')' then ⟨.error (.unmatchedClose r.skipBlank.offset), r.skipBlank.skipOne⟩
      else if c = '(' then (r.skipBlank.skipOne.elements r.skipBlank.offset).map .list
      else ⟨.ok r.skipBlank.atom, r.skipBlank.skipAtom⟩ := by
  unfold read readAdvancing
  split
  next unread => rw [unread]
  next c cs unread =>
    conv => rhs; rw [unread]
    dsimp only
    split
    · rfl
    split
    · rfl
    · rfl

theorem read_of_end {r : Reader} (h : r.skipBlank.unread = []) :
    r.read = ⟨.error .endOfInput, r.skipBlank⟩ := by
  rw [read_eq, h]

theorem read_of_close {r : Reader} {cs : List Char} (h : r.skipBlank.unread = ')' :: cs) :
    r.read = ⟨.error (.unmatchedClose r.skipBlank.offset), r.skipBlank.skipOne⟩ := by
  rw [read_eq, h]
  exact if_pos rfl

theorem read_of_open {r : Reader} {cs : List Char} (h : r.skipBlank.unread = '(' :: cs) :
    r.read = (r.skipBlank.skipOne.elements r.skipBlank.offset).map .list := by
  rw [read_eq, h]
  exact if_neg (by decide)

theorem read_of_atom {r : Reader} {c : Char} {cs : List Char}
    (h : r.skipBlank.unread = c :: cs) (close : c ≠ ')') (opening : c ≠ '(') :
    r.read = ⟨.ok r.skipBlank.atom, r.skipBlank.skipAtom⟩ := by
  rw [read_eq, h]
  exact (if_neg close).trans (if_neg opening)

theorem elements_eq (opened : Nat) (r : Reader) : r.elements opened =
    match r.skipBlank.unread with
    | [] => ⟨.error (.unclosed opened), r.skipBlank⟩
    | c :: _ =>
      if c = ')' then ⟨.ok [], r.skipBlank.skipOne⟩
      else r.read.andThen fun tree s => (s.elements opened).map (tree :: ·) := by
  conv => lhs; unfold elements elementsAdvancing
  split
  next unread => rw [unread]
  next c cs unread =>
    conv => rhs; rw [unread]
    dsimp only
    split
    · rfl
    · unfold read
      match r.readAdvancing with
      | ⟨⟨.error _, _⟩, _⟩ => rfl
      | ⟨⟨.ok _, _⟩, _⟩ => rfl

theorem elements_of_end {opened : Nat} {r : Reader} (h : r.skipBlank.unread = []) :
    r.elements opened = ⟨.error (.unclosed opened), r.skipBlank⟩ := by
  rw [elements_eq, h]

theorem elements_of_close {opened : Nat} {r : Reader} {cs : List Char}
    (h : r.skipBlank.unread = ')' :: cs) :
    r.elements opened = ⟨.ok [], r.skipBlank.skipOne⟩ := by
  rw [elements_eq, h]
  exact if_pos rfl

theorem elements_of_form {opened : Nat} {r : Reader} {c : Char} {cs : List Char}
    (h : r.skipBlank.unread = c :: cs) (close : c ≠ ')') :
    r.elements opened =
      r.read.andThen fun tree s => (s.elements opened).map (tree :: ·) := by
  rw [elements_eq, h]
  exact if_neg close

theorem read_advances (r : Reader) : r.read.Advances r :=
  r.readAdvancing.property

theorem elements_advances (opened : Nat) (r : Reader) : (r.elements opened).Advances r :=
  (r.elementsAdvancing opened).property

def next (r : Reader) : Option (Except ReadError Tree) × Reader :=
  match r.read with
  | ⟨.error .endOfInput, s⟩ => (none, s)
  | ⟨result, s⟩ => (some result, s)

theorem length_lt_of_read {r : Reader} (h : r.read.result ≠ .error .endOfInput) :
    r.read.after.unread.length < r.unread.length := by
  rcases r.skipBlank_cases with last | ⟨cs, close⟩ | ⟨cs, opening⟩ | ⟨c, cs, atom, close, opening⟩
  · exact absurd (congrArg Attempt.result (read_of_end last)) h
  · rw [read_of_close close]
    exact length_skipOne_lt_of_skipBlank close
  · rw [read_of_open opening]
    exact Nat.lt_of_le_of_lt (elements_advances _ _).le (length_skipOne_lt_of_skipBlank opening)
  · rw [read_of_atom atom close opening]
    exact length_skipAtom_lt_of_skipBlank atom close

theorem length_lt_of_next {r s : Reader} {result : Except ReadError Tree}
    (h : r.next = (some result, s)) : s.unread.length < r.unread.length := by
  unfold next at h
  split at h
  next => cases h
  next outcome t clean reading =>
    have more : r.read.result ≠ .error .endOfInput := by
      rw [reading]
      exact fun same => clean same
    have further := length_lt_of_read more
    rw [reading] at further
    cases h
    exact further

/-- Every reading up to the clean end, and the position there. -/
def drain (r : Reader) : List Reading × Reader :=
  match h : r.next with
  | (none, s) => ([], s)
  | (some result, s) =>
    have := length_lt_of_next h
    let later := drain s
    (⟨result, s⟩ :: later.1, later.2)
termination_by r.unread.length

theorem drain_eq (r : Reader) : r.drain =
    match r.next with
    | (none, s) => ([], s)
    | (some result, s) => (⟨result, s⟩ :: s.drain.1, s.drain.2) := by
  rw [drain]
  split
  next s last => rw [last]
  next result s more => conv => rhs; rw [more]

theorem drain_of_none {r s : Reader} (h : r.next = (none, s)) : r.drain = ([], s) := by
  rw [drain_eq, h]

theorem drain_of_some {r s : Reader} {result : Except ReadError Tree}
    (h : r.next = (some result, s)) :
    r.drain = (⟨result, s⟩ :: s.drain.1, s.drain.2) := by
  rw [drain_eq, h]

/-- The readings up to the clean end or the first fault, which is then the last of them. -/
def untilFault (r : Reader) : List Reading :=
  match h : r.next with
  | (none, _) => []
  | (some (.error e), s) => [⟨.error e, s⟩]
  | (some (.ok tree), s) =>
    have := length_lt_of_next h
    ⟨.ok tree, s⟩ :: untilFault s
termination_by r.unread.length

theorem untilFault_eq (r : Reader) : r.untilFault =
    match r.next with
    | (none, _) => []
    | (some (.error e), s) => [⟨.error e, s⟩]
    | (some (.ok tree), s) => ⟨.ok tree, s⟩ :: s.untilFault := by
  rw [untilFault]
  split
  next s last => rw [last]
  next e s fault => rw [fault]
  next tree s more => conv => rhs; rw [more]

theorem untilFault_of_none {r s : Reader} (h : r.next = (none, s)) : r.untilFault = [] := by
  rw [untilFault_eq, h]

theorem untilFault_of_error {r s : Reader} {e : ReadError} (h : r.next = (some (.error e), s)) :
    r.untilFault = [⟨.error e, s⟩] := by
  rw [untilFault_eq, h]

theorem untilFault_of_ok {r s : Reader} {t : Tree} (h : r.next = (some (.ok t), s)) :
    r.untilFault = ⟨.ok t, s⟩ :: s.untilFault := by
  rw [untilFault_eq, h]

end Reader

/-- Reads the first form of a text; what follows it is ignored. -/
def Tree.parse (source : String) : Except ReadError Tree :=
  (Reader.ofString source).read.result

/-- Reads every form of a text, or fails with the first fault. -/
def Tree.parseAll (source : String) : Except ReadError (List Tree) :=
  (Reader.ofString source).untilFault.mapM (·.result)

end Sexp
