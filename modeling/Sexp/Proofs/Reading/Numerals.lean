import Mathlib.Algebra.Group.Nat.Defs
import Mathlib.Algebra.Ring.Int.Defs
import Sexp.Proofs.Reading.Grammar

/-!
# Which atoms are numbers

A numeral is a sign, if there is one, and ASCII digits, each of which counts by its place. An atom
is read as a number exactly when its whole text is a numeral of a value within the 64 bits, one
more below zero than above. Any other atom is read as the symbol of its text: a value out of range
neither wraps nor is cut off at the limit.
-/

namespace Sexp

structure IsDigits (ds : List Char) : Prop where
  nonempty : ds ≠ []
  ascii : ∀ c ∈ ds, '0' ≤ c ∧ c ≤ '9'

/-- The sum of the digits, each times the power of ten that belongs to its place. -/
def placeValue : List Char → Nat
  | [] => 0
  | d :: ds => (d.toNat - '0'.toNat) * 10 ^ ds.length + placeValue ds

inductive Numeral : List Char → Int → Prop where
  | bare {ds : List Char} : IsDigits ds → Numeral ds (placeValue ds)
  | plus {ds : List Char} : IsDigits ds → Numeral ('+' :: ds) (placeValue ds)
  | minus {ds : List Char} : IsDigits ds → Numeral ('-' :: ds) (-(placeValue ds))

def FitsInt64 (z : Int) : Prop :=
  -2 ^ 63 ≤ z ∧ z ≤ 2 ^ 63 - 1

instance (z : Int) : Decidable (FitsInt64 z) :=
  inferInstanceAs (Decidable (_ ∧ _))

variable {f w rest : List Char} {z : Int} {n : Nat} {v : Int64}

namespace Text.Decimal

theorem ofDigitChars_eq_placeValue (ds : List Char) :
    Nat.ofDigitChars 10 ds 0 = placeValue ds := by
  induction ds with
  | nil => rfl
  | cons d ds ih =>
    rw [Nat.ofDigitChars_cons, Nat.ofDigitChars_eq_ofDigitChars_zero, ih, placeValue]
    simp [Nat.mul_comm]

theorem isDigit_iff {c : Char} : c.isDigit ↔ '0' ≤ c ∧ c ≤ '9' := by
  simp [Char.isDigit, Char.le_def]

theorem unsigned?_eq_some_iff :
    unsigned? f = some n ↔ IsDigits f ∧ n = placeValue f := by
  rw [unsigned?, ofDigitChars_eq_placeValue]
  split
  next other =>
    simp only [reduceCtorEq, false_iff, not_and]
    intro text
    have digits : f.all Char.isDigit :=
      List.all_eq_true.2 fun c mem => isDigit_iff.2 (text.ascii c mem)
    simp [digits, text.nonempty] at other
  next digits =>
    simp only [Bool.or_eq_true, List.isEmpty_iff, Bool.not_eq_true', not_or,
      Bool.not_eq_false, List.all_eq_true] at digits
    have text : IsDigits f := ⟨digits.1, fun c mem => isDigit_iff.1 (digits.2 c mem)⟩
    simp [text, eq_comm]

theorem not_isDigits_sign {sign : Char} (other : sign = '+' ∨ sign = '-') (ds : List Char) :
    ¬IsDigits (sign :: ds) := by
  intro digits
  have first := digits.ascii sign List.mem_cons_self
  rcases other with rfl | rfl
  all_goals exact absurd first (by decide)

theorem map_unsigned?_eq_some_iff {g : Nat → Int} :
    (unsigned? f).map g = some z ↔ IsDigits f ∧ g (placeValue f) = z := by
  simp only [Option.map_eq_some_iff, unsigned?_eq_some_iff]
  constructor
  · rintro ⟨n, ⟨digits, rfl⟩, value⟩
    exact ⟨digits, value⟩
  · rintro ⟨digits, value⟩
    exact ⟨_, ⟨digits, rfl⟩, value⟩

/-- Without the limits of 64 bits, what is read is every numeral, at its value. -/
theorem int?_eq_some_iff : int? f = some z ↔ Numeral f z := by
  unfold int?
  split
  next ds =>
    rw [map_unsigned?_eq_some_iff]
    constructor
    · rintro ⟨digits, rfl⟩
      exact .plus digits
    · intro numeral
      cases numeral with
      | bare digits => exact absurd digits (not_isDigits_sign (.inl rfl) ds)
      | plus digits => exact ⟨digits, rfl⟩
  next ds =>
    rw [map_unsigned?_eq_some_iff]
    constructor
    · rintro ⟨digits, rfl⟩
      exact .minus digits
    · intro numeral
      cases numeral with
      | bare digits => exact absurd digits (not_isDigits_sign (.inr rfl) ds)
      | minus digits => exact ⟨digits, rfl⟩
  next plus minus =>
    rw [map_unsigned?_eq_some_iff]
    constructor
    · rintro ⟨digits, rfl⟩
      exact .bare digits
    · intro numeral
      cases numeral with
      | bare digits => exact ⟨digits, rfl⟩
      | plus => exact absurd rfl (plus _)
      | minus => exact absurd rfl (minus _)

theorem fitsInt64_iff : FitsInt64 z ↔ Int64.minValue.toInt ≤ z ∧ z ≤ Int64.maxValue.toInt := by
  rw [FitsInt64, Int64.toInt_minValue, Int64.toInt_maxValue]

theorem toInt_ofInt_of_fitsInt64 (fits : FitsInt64 z) : (Int64.ofInt z).toInt = z :=
  Int64.toInt_ofInt_of_le fits.1 (by have := fits.2; omega)

theorem int64?_eq_some_iff :
    int64? f = some v ↔ ∃ z, Numeral f z ∧ FitsInt64 z ∧ v.toInt = z := by
  simp only [int64?, Option.bind_eq_some_iff, int?_eq_some_iff]
  constructor
  · rintro ⟨z, numeral, found⟩
    split at found
    next limits =>
      cases found
      have fits : FitsInt64 z := fitsInt64_iff.2 limits
      exact ⟨z, numeral, fits, toInt_ofInt_of_fitsInt64 fits⟩
    next => contradiction
  · rintro ⟨z, numeral, fits, rfl⟩
    exact ⟨v.toInt, numeral, by rw [if_pos (fitsInt64_iff.1 fits), Int64.ofInt_toInt]⟩

end Text.Decimal

open Text.Decimal

theorem isAtomChar_of_isDigit {c : Char} (digit : c.isDigit) : isAtomChar c ∧ c ≠ '(' := by
  have range : 48 ≤ c.toNat ∧ c.toNat ≤ 57 := by
    simpa [Char.isDigit, UInt32.le_iff_toNat_le] using digit
  have nonblank : Text.isBlank c = false := by
    simp [Text.isBlank, Text.inRanges, Text.blankRanges]
    omega
  have close : c ≠ ')' := by
    intro same
    simp [same] at range
  have opening : c ≠ '(' := by
    intro same
    simp [same] at range
  exact ⟨isAtomChar_iff.2 ⟨nonblank, close⟩, opening⟩

/-- A numeral is an atom by itself: no other form ends or begins within it. -/
theorem Numeral.isAtomText (numeral : Numeral f z) : IsAtomText f := by
  have digit {ds : List Char} (digits : IsDigits ds) : ∀ c ∈ ds, isAtomChar c ∧ c ≠ '(' :=
    fun c mem => isAtomChar_of_isDigit (isDigit_iff.2 (digits.ascii c mem))
  cases numeral with
  | bare digits =>
    refine ⟨digits.nonempty, fun c mem => (digit digits c mem).1, fun head => ?_⟩
    exact (digit digits _ (List.mem_of_head? head)).2 rfl
  | plus digits | minus digits =>
    refine ⟨List.cons_ne_nil _ _, List.forall_mem_cons.2 ⟨by decide, fun c mem => ?_⟩, by simp⟩
    exact (digit digits c mem).1

theorem Numeral.unique {y : Int} (first : Numeral f y) (second : Numeral f z) : y = z :=
  Option.some.inj ((int?_eq_some_iff.2 first).symm.trans (int?_eq_some_iff.2 second))

theorem Tree.ofAtom_eq_number_iff :
    Tree.ofAtom f = .number v ↔ ∃ z, Numeral f z ∧ FitsInt64 z ∧ v.toInt = z := by
  rw [← int64?_eq_some_iff, Tree.ofAtom]
  cases int64? f <;> simp

theorem Tree.ofAtom_eq_symbol (other : ¬∃ z, Numeral f z ∧ FitsInt64 z) :
    Tree.ofAtom f = .symbol (.ofList f) := by
  unfold Tree.ofAtom
  split
  next v found =>
    obtain ⟨z, numeral, fits, -⟩ := int64?_eq_some_iff.1 found
    exact absurd ⟨z, numeral, fits⟩ other
  next => rfl

/-- An atom is read whole, as a number exactly when its text is a numeral whose value fits, and
otherwise as the symbol of its text. -/
theorem Reader.read_atom_eq_number_iff (r : Reader) (w f rest : List Char)
    (unread : r.unread = w ++ f ++ rest) (blank : Blank w) (text : IsAtomText f)
    (maximal : ∀ c ∈ rest.head?, Text.isBlank c ∨ c = ')') :
    let after : Reader := ⟨rest, r.offset + Text.utf8Size (w ++ f)⟩
    (∀ v : Int64, r.read = ⟨.ok (.number v), after⟩ ↔
      ∃ z, Numeral f z ∧ FitsInt64 z ∧ v.toInt = z) ∧
    ((¬∃ z, Numeral f z ∧ FitsInt64 z) → r.read = ⟨.ok (.symbol (.ofList f)), after⟩) := by
  intro after
  have reading : r.read = ⟨.ok (.ofAtom f), after⟩ := (r.read_eq_ok_iff_form after (.ofAtom f)).2
    ⟨w, f, unread, rfl, blank, .atom text, fun _ => maximal⟩
  constructor
  · intro v
    rw [reading, ← Tree.ofAtom_eq_number_iff]
    simp
  · intro other
    rw [reading, Tree.ofAtom_eq_symbol other]

/-- The last number below zero, written with leading zeros, and the first beyond the last above. -/
theorem Reader.read_atom_at_limits :
    let low := "-0009223372036854775808"
    let high := "+9223372036854775808"
    Reader.read ⟨' ' :: low.toList ++ [')'], 5⟩ = ⟨.ok (.number Int64.minValue), ⟨[')'], 29⟩⟩ ∧
      (Reader.ofString high).read = ⟨.ok (.symbol high), ⟨[], 20⟩⟩ := by
  intro low high
  have blank : Blank [' '] := .of_all (by decide)
  have close : ∀ c ∈ [')'].head?, Text.isBlank c ∨ c = ')' := by
    intro c head
    cases head
    exact .inr rfl
  have lowest : Numeral low.toList (-2 ^ 63) := int?_eq_some_iff.1 (by decide)
  have highest : Numeral high.toList (2 ^ 63) := int?_eq_some_iff.1 (by decide)
  have beyond : ¬∃ z, Numeral high.toList z ∧ FitsInt64 z := by
    rintro ⟨z, numeral, fits⟩
    obtain rfl : 2 ^ 63 = z := highest.unique numeral
    exact absurd fits (by decide)
  constructor
  · have classified := read_atom_eq_number_iff ⟨' ' :: low.toList ++ [')'], 5⟩ [' '] low.toList
      [')'] rfl blank lowest.isAtomText close
    have size : Text.utf8Size ([' '] ++ low.toList) = 24 := by decide
    rw [size] at classified
    exact (classified.1 Int64.minValue).2 ⟨_, lowest, by decide, by decide⟩
  · have classified := read_atom_eq_number_iff (.ofString high) [] high.toList []
      (by simp [ofString]) .nil highest.isAtomText nofun
    have size : Text.utf8Size ([] ++ high.toList) = 20 := by decide
    rw [size, String.ofList_toList] at classified
    exact classified.2 beyond

end Sexp
