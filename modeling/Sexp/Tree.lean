import Sexp.Text.Encoding

/-!
# Trees of symbols, numbers and lists

A tree is one of four shapes, and two trees are equal when they have the same shape and, down
through every list, the same contents. `invalid` stands for a tree that is not there: it is equal
to itself, it may be an element of a list, and it is the answer for an index out of range.

A list is printed in parentheses with single spaces between its elements, a symbol as its bare
name, a number in decimal. The form is produced in pieces, in the order in which they reach an
output. Nothing is escaped, so two trees may print alike.
-/

namespace Sexp

inductive Tree where
  | invalid
  | symbol (name : String)
  | number (value : Int64)
  | list (elements : List Tree)

namespace Tree

instance : Inhabited Tree := ⟨.invalid⟩

mutual

/-- Decides equality of two trees, left to right through their lists. -/
def decEq : (a b : Tree) → Decidable (a = b)
  | .invalid, .invalid => isTrue rfl
  | .symbol m, .symbol n =>
    if h : m = n then isTrue (congrArg _ h) else isFalse fun e => h (symbol.inj e)
  | .number v, .number w =>
    if h : v = w then isTrue (congrArg _ h) else isFalse fun e => h (number.inj e)
  | .list ts, .list us =>
    match decEqAll ts us with
    | isTrue h => isTrue (congrArg _ h)
    | isFalse h => isFalse fun e => h (list.inj e)
  | .invalid, .symbol _ | .invalid, .number _ | .invalid, .list _
  | .symbol _, .invalid | .symbol _, .number _ | .symbol _, .list _
  | .number _, .invalid | .number _, .symbol _ | .number _, .list _
  | .list _, .invalid | .list _, .symbol _ | .list _, .number _ => isFalse nofun

def decEqAll : (ts us : List Tree) → Decidable (ts = us)
  | [], [] => isTrue rfl
  | [], _ :: _ | _ :: _, [] => isFalse nofun
  | t :: ts, u :: us =>
    match decEq t u with
    | isFalse h => isFalse fun e => h (List.cons.inj e).1
    | isTrue h =>
      match decEqAll ts us with
      | isFalse hs => isFalse fun e => hs (List.cons.inj e).2
      | isTrue hs => isTrue (h ▸ hs ▸ rfl)

end

instance : DecidableEq Tree := decEq

/-- Induction over trees, with the hypothesis at every element of a list. -/
@[induction_eliminator]
theorem induction {motive : Tree → Prop} (invalid : motive .invalid)
    (symbol : ∀ name, motive (.symbol name)) (number : ∀ value, motive (.number value))
    (list : ∀ elements, (∀ t ∈ elements, motive t) → motive (.list elements)) :
    ∀ t, motive t
  | .invalid => invalid
  | .symbol name => symbol name
  | .number value => number value
  | .list elements => list elements fun t _ => induction invalid symbol number list t

/-- Exactly the trees that have neither elements nor the invalid shape. -/
def isAtom : Tree → Bool
  | .symbol _ | .number _ => true
  | .invalid | .list _ => false

def isInvalid : Tree → Bool
  | .invalid => true
  | _ => false

def symbol? : Tree → Option String
  | .symbol name => some name
  | _ => none

def number? : Tree → Option Int64
  | .number value => some value
  | _ => none

def elements? : Tree → Option (List Tree)
  | .list elements => some elements
  | _ => none

/-- The element at an index; past the last one, the invalid tree. -/
def elementOrInvalid (elements : List Tree) (index : Nat) : Tree :=
  elements[index]?.getD .invalid

mutual

/-- The name of every symbol, from left to right. -/
def names : Tree → List String
  | .invalid | .number _ => []
  | .symbol name => [name]
  | .list ts => namesAll ts

def namesAll : List Tree → List String
  | [] => []
  | t :: ts => names t ++ namesAll ts

end

@[simp] theorem namesAll_eq_flatMap (ts : List Tree) : namesAll ts = ts.flatMap names := by
  induction ts with
  | nil => rfl
  | cons t ts ih => simp [namesAll, ih]

theorem names_list (ts : List Tree) : (list ts).names = ts.flatMap names := by
  simp [names]

theorem mem_names_list {name : String} {t : Tree} {ts : List Tree} (mem : t ∈ ts)
    (inside : name ∈ t.names) : name ∈ (list ts).names := by
  rw [names_list]
  exact List.mem_flatMap.2 ⟨t, mem, inside⟩

end Tree

inductive Shape where
  | invalid
  | symbol
  | number
  | list
deriving DecidableEq

def Shape.name : Shape → String
  | .invalid => "invalid"
  | .symbol => "symbol"
  | .number => "number"
  | .list => "list"

def Tree.shape : Tree → Shape
  | .invalid => .invalid
  | .symbol _ => .symbol
  | .number _ => .number
  | .list _ => .list

/-- An action for each shape, which is given what a tree of that shape holds. -/
structure Handlers (m : Type → Type) where
  invalid : m Unit
  symbol : String → m Unit
  number : Int64 → m Unit
  list : List Tree → m Unit

def Handlers.handle (h : Handlers m) : Tree → m Unit
  | .invalid => h.invalid
  | .symbol name => h.symbol name
  | .number value => h.number value
  | .list elements => h.list elements

namespace Tree

section Handlers

variable {m : Type → Type}

def ifInvalid [Pure m] (t : Tree) (handler : m Unit) : m Unit :=
  if t.isInvalid then handler else pure ()

def ifSymbol [Pure m] (t : Tree) (handler : String → m Unit) : m Unit :=
  t.symbol?.forM handler

def ifNumber [Pure m] (t : Tree) (handler : Int64 → m Unit) : m Unit :=
  t.number?.forM handler

def ifList [Pure m] (t : Tree) (handler : List Tree → m Unit) : m Unit :=
  t.elements?.forM handler

def offer [Monad m] (t : Tree) (h : Handlers m) : m Unit := do
  t.ifInvalid h.invalid
  t.ifSymbol h.symbol
  t.ifNumber h.number
  t.ifList h.list

/-- Only the handler of the tree's shape is called, and only once. -/
theorem offer_eq_handle [Monad m] [LawfulMonad m] (t : Tree) (h : Handlers m) :
    t.offer h = h.handle t := by
  cases t <;>
    simp [offer, Handlers.handle, ifInvalid, ifSymbol, ifNumber, ifList, isInvalid, symbol?,
      number?, elements?]

end Handlers

mutual

def pieces : Tree → List String
  | .invalid => ["<invalid symtree>"]
  | .symbol name => [name]
  | .number value => Text.Decimal.pieces value
  | .list [] => ["(", ")"]
  | .list (t :: ts) => "(" :: (pieces t ++ piecesAfter ts)

/-- What follows the first element of a list: the other elements and the closing parenthesis. -/
def piecesAfter : List Tree → List String
  | [] => [")"]
  | t :: ts => " " :: (pieces t ++ piecesAfter ts)

end

def text (t : Tree) : String :=
  String.join t.pieces

/-- The characters of the printed form. -/
def chars (t : Tree) : List Char :=
  t.pieces.flatMap String.toList

/-- The characters that follow the first element of a list. -/
def charsAfter (ts : List Tree) : List Char :=
  (piecesAfter ts).flatMap String.toList

@[simp] theorem chars_invalid : invalid.chars = "<invalid symtree>".toList := by
  simp [chars, pieces]

@[simp] theorem chars_symbol (name : String) : (symbol name).chars = name.toList := by
  simp [chars, pieces]

@[simp] theorem chars_number (value : Int64) :
    (number value).chars = (Text.Decimal.pieces value).flatMap String.toList := by
  simp [chars, pieces]

@[simp] theorem chars_list_nil : (list []).chars = ['(', ')'] := by
  simp [chars, pieces]

@[simp] theorem chars_list_cons (t : Tree) (ts : List Tree) :
    (list (t :: ts)).chars = '(' :: (t.chars ++ charsAfter ts) := by
  simp [chars, charsAfter, pieces]

@[simp] theorem charsAfter_nil : charsAfter [] = [')'] := by
  simp [charsAfter, piecesAfter]

@[simp] theorem charsAfter_cons (t : Tree) (ts : List Tree) :
    charsAfter (t :: ts) = ' ' :: (t.chars ++ charsAfter ts) := by
  simp [chars, charsAfter, piecesAfter]

/-- The printed elements with single spaces between them. -/
def spaced : List Tree → List Char
  | [] => []
  | t :: ts => t.chars ++ ts.flatMap fun u => ' ' :: u.chars

theorem charsAfter_eq (ts : List Tree) :
    charsAfter ts = (ts.flatMap fun u => ' ' :: u.chars) ++ [')'] := by
  induction ts with
  | nil => simp
  | cons t ts ih => simp [ih]

theorem chars_list (ts : List Tree) : (list ts).chars = '(' :: (spaced ts ++ [')']) := by
  cases ts with
  | nil => simp [spaced]
  | cons t ts => simp [spaced, charsAfter_eq]

theorem toList_text (t : Tree) : t.text.toList = t.chars := by
  simp [text, chars]

end Tree

end Sexp
