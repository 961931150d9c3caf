/-!
# Texts as bytes and integers as texts

Offsets into a text and the bytes that reach an output are counted in UTF-8.

An integer is written with the fewest digits, after a `-` if it is negative. More than that is
read: one optional sign, then one or more ASCII digits, leading zeros included. A text whose value
lies outside the 64 bits is refused, however long it is; nothing wraps. What is written is read
back (`int64?_pieces`).
-/

namespace Sexp.Text

def utf8Bytes (cs : List Char) : List UInt8 :=
  cs.flatMap String.utf8EncodeChar

def utf8Size : List Char → Nat
  | [] => 0
  | c :: cs => c.utf8Size + utf8Size cs

@[simp] theorem utf8Bytes_nil : utf8Bytes [] = [] := rfl

@[simp] theorem utf8Bytes_append (cs ds : List Char) :
    utf8Bytes (cs ++ ds) = utf8Bytes cs ++ utf8Bytes ds := by
  simp [utf8Bytes]

@[simp] theorem utf8Size_nil : utf8Size [] = 0 := rfl

@[simp] theorem utf8Size_cons (c : Char) (cs : List Char) :
    utf8Size (c :: cs) = c.utf8Size + utf8Size cs := rfl

@[simp] theorem utf8Size_append (cs ds : List Char) :
    utf8Size (cs ++ ds) = utf8Size cs + utf8Size ds := by
  induction cs with
  | nil => simp
  | cons c cs ih => simp [ih, Nat.add_assoc]

theorem length_utf8Bytes (cs : List Char) : (utf8Bytes cs).length = utf8Size cs := by
  induction cs with
  | nil => rfl
  | cons c cs ih =>
    have step : utf8Bytes (c :: cs) = String.utf8EncodeChar c ++ utf8Bytes cs := by
      simp [utf8Bytes]
    rw [step, List.length_append, ih, String.length_utf8EncodeChar, utf8Size_cons]

theorem utf8ByteSize_ofList (cs : List Char) :
    (String.ofList cs).utf8ByteSize = utf8Size cs := by
  rw [← String.size_toByteArray, String.toByteArray_ofList, List.utf8Encode, ← length_utf8Bytes,
    utf8Bytes, List.size_toByteArray]

/-- No character's bytes begin those of another, so a text whose bytes begin another text begins
it. -/
theorem isPrefix_of_utf8Bytes {cs ds : List Char} (begins : utf8Bytes cs <+: utf8Bytes ds) :
    cs <+: ds := by
  obtain ⟨bytes, whole⟩ := begins
  refine List.isPrefix_of_utf8Encode_append_eq_utf8Encode bytes.toByteArray ?_
  rw [List.utf8Encode, List.utf8Encode, ← List.toByteArray_append]
  exact congrArg List.toByteArray whole

namespace Decimal

def digits (n : Nat) : List Char :=
  Nat.toDigits 10 n

/-- The sign, if there is one, and the digits are separate pieces. -/
def pieces (v : Int64) : List String :=
  if v.toInt < 0 then ["-", .ofList (digits v.toInt.natAbs)]
  else [.ofList (digits v.toInt.natAbs)]

def unsigned? (cs : List Char) : Option Nat :=
  if cs.isEmpty || !cs.all Char.isDigit then none else some (Nat.ofDigitChars 10 cs 0)

def int? : List Char → Option Int
  | '+' :: cs => (unsigned? cs).map Int.ofNat
  | '-' :: cs => (unsigned? cs).map fun n => -Int.ofNat n
  | cs => (unsigned? cs).map Int.ofNat

def int64? (cs : List Char) : Option Int64 :=
  (int? cs).bind fun v =>
    if Int64.minValue.toInt ≤ v ∧ v ≤ Int64.maxValue.toInt then some (.ofInt v) else none

theorem isDigit_of_mem_digits {n : Nat} {c : Char} (h : c ∈ digits n) : c.isDigit :=
  Nat.isDigit_of_mem_toDigits (by decide) (by decide) h

theorem unsigned?_digits (n : Nat) : unsigned? (digits n) = some n := by
  have nonempty : (digits n).isEmpty = false := by simp [digits]
  have all : (digits n).all Char.isDigit := List.all_eq_true.2 fun _ => isDigit_of_mem_digits
  rw [unsigned?, nonempty, all]
  simp [digits]

theorem int?_digits (n : Nat) : int? (digits n) = some (n : Int) := by
  have first {c : Char} {cs : List Char} (text : digits n = c :: cs) : c.isDigit :=
    isDigit_of_mem_digits (text ▸ List.mem_cons_self)
  unfold int?
  split
  next cs text => exact absurd (first text) (by decide)
  next cs text => exact absurd (first text) (by decide)
  next => simp [unsigned?_digits]

theorem int?_minus_digits (n : Nat) : int? ('-' :: digits n) = some (-(n : Int)) := by
  change (unsigned? (digits n)).map (fun n => -Int.ofNat n) = _
  rw [unsigned?_digits]
  rfl

theorem flatMap_pieces (v : Int64) :
    (pieces v).flatMap String.toList =
      if v.toInt < 0 then '-' :: digits v.toInt.natAbs else digits v.toInt.natAbs := by
  have minus : "-".toList = ['-'] := rfl
  unfold pieces
  split <;> simp only [List.flatMap_cons, List.flatMap_nil, List.append_nil, minus,
    String.toList_ofList, List.cons_append, List.nil_append]

theorem int?_pieces (v : Int64) : int? ((pieces v).flatMap String.toList) = some v.toInt := by
  rw [flatMap_pieces]
  split
  · rw [int?_minus_digits]
    congr 1; omega
  · rw [int?_digits]
    congr 1; omega

theorem int64?_pieces (v : Int64) : int64? ((pieces v).flatMap String.toList) = some v := by
  rw [int64?, int?_pieces, Option.bind_some, if_pos ⟨v.minValue_le_toInt, v.toInt_le⟩,
    Int64.ofInt_toInt]

end Decimal

end Sexp.Text
