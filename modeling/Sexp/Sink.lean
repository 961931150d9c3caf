import Sexp.Tree

/-!
# Writing trees to a sink

A sink takes a limited number of bytes at a time and is closed once it has kept its limit. A piece
of text is offered again until all of it is kept, and an empty piece is not offered at all. What a
sink has kept when a write fails stays kept, even if it ends within a character.
-/

namespace Sexp

inductive WriteError where
  | closed
  | nothingTaken
deriving DecidableEq

def WriteError.message : WriteError → String
  | .closed => "closed"
  | .nothingTaken => "failed to write whole buffer"

/-- The most bytes that are taken at a time and kept in all, if there are such bounds, and the
bytes kept so far. -/
structure Sink where
  chunk : Option Nat
  limit : Option Nat
  kept : Array UInt8

namespace Sink

def bounded (chunk limit : Option Nat) : Sink :=
  ⟨chunk, limit, #[]⟩

def upTo (bound : Option Nat) (bytes : List UInt8) : List UInt8 :=
  match bound with
  | none => bytes
  | some n => bytes.take n

/-- The part of an offer that the sink takes. -/
def taken (s : Sink) (bytes : List UInt8) : List UInt8 :=
  upTo (s.limit.map (· - s.kept.size)) (upTo s.chunk bytes)

/-- Offers the bytes until all are kept, and counts them. -/
def writeAll (s : Sink) (bytes : List UInt8) : Except WriteError Nat × Sink :=
  if bytes.isEmpty then (.ok 0, s)
  else if s.limit = some s.kept.size then (.error .closed, s)
  else
    match (s.taken bytes).length with
    | 0 => (.error .nothingTaken, s)
    | n + 1 =>
      match writeAll { s with kept := s.kept ++ s.taken bytes } (bytes.drop (n + 1)) with
      | (.ok more, t) => (.ok (n + 1 + more), t)
      | (.error e, t) => (.error e, t)
termination_by bytes.length
decreasing_by
  have : 0 < bytes.length := by simpa [List.length_pos_iff] using ‹¬bytes.isEmpty = true›
  simp; omega

def writePieces (s : Sink) : List String → Except WriteError Nat × Sink
  | [] => (.ok 0, s)
  | piece :: pieces =>
    match s.writeAll (Text.utf8Bytes piece.toList) with
    | (.error e, t) => (.error e, t)
    | (.ok n, t) =>
      match t.writePieces pieces with
      | (.ok more, u) => (.ok (n + more), u)
      | (.error e, u) => (.error e, u)

end Sink

/-- Writes the printed form to a sink; the answer counts its bytes. -/
def Tree.writeTo (t : Tree) (s : Sink) : Except WriteError Nat × Sink :=
  s.writePieces t.pieces

end Sexp
