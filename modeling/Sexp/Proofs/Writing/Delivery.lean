import Sexp.Sink

/-!
# What a sink keeps

Bytes may reach a sink cut into pieces, and the sink may take less of a piece than it is offered.
Neither matters: writing comes to the same as putting the bytes one at a time (`writePieces_eq`).
Main statement: a sink that has kept nothing keeps all bytes if its limit allows, and else the
first ones up to the limit.
-/

namespace Sexp

namespace Sink

/-- What a write answers, and the sink after it. -/
abbrev Write := Except WriteError Nat × Sink

def Write.andThen (w : Write) (next : Sink → Write) : Write :=
  match w with
  | (.error e, t) => (.error e, t)
  | (.ok n, t) =>
    match next t with
    | (.ok more, u) => (.ok (n + more), u)
    | (.error e, u) => (.error e, u)

def keep (s : Sink) (bytes : List UInt8) : Sink :=
  { s with kept := s.kept ++ bytes }

def put (s : Sink) (byte : UInt8) : Write :=
  if s.limit = some s.kept.size then (.error .closed, s)
  else if s.taken [byte] = [] then (.error .nothingTaken, s)
  else (.ok 1, s.keep [byte])

def putAll (s : Sink) : List UInt8 → Write
  | [] => (.ok 0, s)
  | byte :: bytes => (s.put byte).andThen (putAll · bytes)

def Fits (s : Sink) (bytes : List UInt8) : Prop :=
  ∀ n, s.limit = some n → s.kept.size + bytes.length ≤ n

@[simp] theorem andThen_error (e : WriteError) (t : Sink) (next : Sink → Write) :
    Write.andThen (.error e, t) next = (.error e, t) := rfl

theorem andThen_ok (n : Nat) (t : Sink) (next : Sink → Write) :
    Write.andThen (.ok n, t) next = ((next t).1.map (n + ·), (next t).2) := by
  rw [Write.andThen]
  cases next t with
  | mk result u => cases result <;> simp [Except.map]

theorem andThen_assoc (w : Write) (first second : Sink → Write) :
    (w.andThen first).andThen second = w.andThen fun t => (first t).andThen second := by
  obtain ⟨_ | n, t⟩ := w
  · rfl
  · simp only [andThen_ok]
    obtain ⟨_ | m, u⟩ := first t
    · rfl
    · simp only [Except.map, andThen_ok]
      obtain ⟨_ | k, v⟩ := second u <;> simp [Nat.add_assoc]

variable {s : Sink} {byte : UInt8} {bytes : List UInt8}

@[simp] theorem size_kept_keep (s : Sink) (bytes : List UInt8) :
    (s.keep bytes).kept.size = s.kept.size + bytes.length := by
  rw [← Array.length_toList]
  simp [keep]

@[simp] theorem limit_keep (s : Sink) (bytes : List UInt8) : (s.keep bytes).limit = s.limit := rfl

@[simp] theorem keep_keep (s : Sink) (bytes more : List UInt8) :
    (s.keep bytes).keep more = s.keep (bytes ++ more) := by
  simp only [keep, mk.injEq, true_and]
  apply Array.ext'
  simp

theorem taken_isPrefix (s : Sink) (bytes : List UInt8) : s.taken bytes <+: bytes := by
  have begins (bound : Option Nat) (bytes : List UInt8) : upTo bound bytes <+: bytes := by
    cases bound with
    | none => exact List.prefix_refl bytes
    | some n => exact List.take_prefix n bytes
  exact (begins _ _).trans (begins _ _)

theorem length_taken_le {n : Nat} (limit : s.limit = some n) :
    (s.taken bytes).length ≤ n - s.kept.size := by
  rw [taken, limit]
  exact List.length_take_le _ _

/-- Whether a sink takes anything does not depend on what it is offered. -/
theorem taken_eq_nil_iff (bytes : List UInt8) (offered : bytes ≠ []) :
    s.taken bytes = [] ↔ s.chunk = some 0 ∨ ∃ n, s.limit = some n ∧ n ≤ s.kept.size := by
  obtain ⟨_ | chunk, _ | limit, kept⟩ := s <;>
    simp [taken, upTo, offered, Nat.sub_eq_zero_iff_le, or_comm]

theorem fits_taken (takes : s.taken bytes ≠ []) : s.Fits (s.taken bytes) := by
  intro n limit
  have positive : 0 < (s.taken bytes).length := List.length_pos_iff.2 takes
  have most : (s.taken bytes).length ≤ n - s.kept.size := length_taken_le limit
  omega

theorem putAll_append (s : Sink) (bytes more : List UInt8) :
    s.putAll (bytes ++ more) = (s.putAll bytes).andThen (putAll · more) := by
  induction bytes generalizing s with
  | nil =>
    simp only [List.nil_append, putAll, andThen_ok]
    obtain ⟨_ | n, t⟩ := s.putAll more <;> simp [Except.map]
  | cons byte bytes ih => simp only [List.cons_append, putAll, ih, andThen_assoc]

theorem put_of_fits (chunk : s.chunk ≠ some 0) (fits : s.Fits [byte]) :
    s.put byte = (.ok 1, s.keep [byte]) := by
  have going : s.limit ≠ some s.kept.size := by
    intro limit
    have room : s.kept.size + 1 ≤ s.kept.size := fits _ limit
    omega
  have takes : s.taken [byte] ≠ [] := by
    rw [ne_eq, taken_eq_nil_iff _ (List.cons_ne_nil _ _)]
    rintro (stuck | ⟨n, limit, full⟩)
    · exact chunk stuck
    · have room : s.kept.size + 1 ≤ n := fits n limit
      omega
  rw [put, if_neg going, if_neg takes]

theorem putAll_of_fits (chunk : s.chunk ≠ some 0) (fits : s.Fits bytes) :
    s.putAll bytes = (.ok bytes.length, s.keep bytes) := by
  induction bytes generalizing s with
  | nil => simp [putAll, keep]
  | cons byte bytes ih =>
    have first : s.Fits [byte] := by
      intro n limit
      have room : s.kept.size + (bytes.length + 1) ≤ n := fits n limit
      rw [List.length_singleton]
      omega
    have later : (s.keep [byte]).Fits bytes := by
      intro n limit
      have room : s.kept.size + (bytes.length + 1) ≤ n := fits n limit
      rw [size_kept_keep, List.length_singleton]
      omega
    rw [putAll, put_of_fits chunk first, andThen_ok, ih (s := s.keep [byte]) chunk later]
    simp [Except.map, Nat.add_comm]

theorem putAll_of_closed (offered : bytes ≠ []) (closed : s.limit = some s.kept.size) :
    s.putAll bytes = (.error .closed, s) := by
  obtain ⟨byte, rest, rfl⟩ := List.exists_cons_of_ne_nil offered
  rw [putAll, put, if_pos closed, andThen_error]

theorem putAll_of_takes_nothing (offered : bytes ≠ []) (going : s.limit ≠ some s.kept.size)
    (nothing : s.taken bytes = []) : s.putAll bytes = (.error .nothingTaken, s) := by
  obtain ⟨byte, rest, rfl⟩ := List.exists_cons_of_ne_nil offered
  have alone : s.taken [byte] = [] := by
    rw [taken_eq_nil_iff _ (List.cons_ne_nil _ _)] at nothing ⊢
    exact nothing
  rw [putAll, put, if_neg going, if_pos alone, andThen_error]

theorem writeAll_of_closed (offered : bytes ≠ []) (closed : s.limit = some s.kept.size) :
    s.writeAll bytes = (.error .closed, s) := by
  rw [writeAll]
  simp [offered, closed]

theorem writeAll_of_takes_nothing (offered : bytes ≠ []) (going : s.limit ≠ some s.kept.size)
    (nothing : s.taken bytes = []) : s.writeAll bytes = (.error .nothingTaken, s) := by
  rw [writeAll]
  simp [offered, going, nothing]

/-- What is taken is kept, and the rest is offered again. -/
theorem writeAll_of_takes (offered : bytes ≠ []) (going : s.limit ≠ some s.kept.size)
    (takes : s.taken bytes ≠ []) :
    s.writeAll bytes =
      Write.andThen (.ok (s.taken bytes).length, s.keep (s.taken bytes))
        (writeAll · (bytes.drop (s.taken bytes).length)) := by
  obtain ⟨n, length⟩ := Nat.exists_eq_succ_of_ne_zero (mt List.length_eq_zero_iff.1 takes)
  conv => lhs; rw [writeAll]
  simp only [List.isEmpty_iff, offered, going, if_false, length]
  rfl

/-- However much is taken at a time, it comes to single bytes. -/
theorem writeAll_eq_putAll (s : Sink) (bytes : List UInt8) : s.writeAll bytes = s.putAll bytes := by
  -- A call may take any number of bytes, so the induction is on how many are left to offer.
  induction size : bytes.length using Nat.strongRecOn generalizing s bytes with
  | ind n ih =>
  by_cases offered : bytes = []
  · subst offered
    simp [writeAll, putAll]
  by_cases closed : s.limit = some s.kept.size
  · rw [writeAll_of_closed offered closed, putAll_of_closed offered closed]
  by_cases takes : s.taken bytes = []
  · rw [writeAll_of_takes_nothing offered closed takes,
      putAll_of_takes_nothing offered closed takes]
  · have chunk : s.chunk ≠ some 0 := by
      intro stuck
      exact takes ((taken_eq_nil_iff _ offered).2 (.inl stuck))
    have first := putAll_of_fits chunk (fits_taken takes)
    have again : (writeAll · (bytes.drop (s.taken bytes).length)) =
        (putAll · (bytes.drop (s.taken bytes).length)) := by
      funext t
      refine ih _ ?_ t _ rfl
      have positive : 0 < (s.taken bytes).length := List.length_pos_iff.2 takes
      have left : 0 < bytes.length := List.length_pos_iff.2 offered
      rw [List.length_drop]
      omega
    rw [writeAll_of_takes offered closed takes, again, ← first, ← putAll_append,
      List.prefix_iff_eq_append.1 (s.taken_isPrefix bytes)]

theorem writePieces_eq (s : Sink) (pieces : List String) :
    s.writePieces pieces = s.putAll (Text.utf8Bytes (String.join pieces).toList) := by
  induction pieces generalizing s with
  | nil => simp [writePieces, putAll]
  | cons piece pieces ih =>
    have step : s.writePieces (piece :: pieces) =
        Write.andThen (s.writeAll (Text.utf8Bytes piece.toList)) (writePieces · pieces) := by
      rw [writePieces]
      obtain ⟨_ | n, t⟩ := s.writeAll (Text.utf8Bytes piece.toList) <;> rfl
    have later : (writePieces · pieces) = _ := funext ih
    rw [step, writeAll_eq_putAll, later, ← putAll_append, ← Text.utf8Bytes_append]
    simp

/-- Bytes that the sink has no room for are kept up to the limit. -/
theorem putAll_of_limit_lt {n : Nat} (chunk : s.chunk ≠ some 0) (limit : s.limit = some n)
    (room : s.kept.size ≤ n) (short : n < s.kept.size + bytes.length) :
    s.putAll bytes = (.error .closed, s.keep (bytes.take (n - s.kept.size))) := by
  have first : s.Fits (bytes.take (n - s.kept.size)) := by
    intro m bound
    obtain rfl : n = m := Option.some.inj (limit.symm.trans bound)
    rw [List.length_take]
    omega
  have left : bytes.drop (n - s.kept.size) ≠ [] := by
    rw [ne_eq, List.drop_eq_nil_iff]
    omega
  have closed : (s.keep (bytes.take (n - s.kept.size))).limit =
      some (s.keep (bytes.take (n - s.kept.size))).kept.size := by
    rw [limit_keep, limit, size_kept_keep, List.length_take]
    congr 1
    omega
  conv => lhs; rw [← List.take_append_drop (n - s.kept.size) bytes]
  rw [putAll_append, putAll_of_fits chunk first, andThen_ok, putAll_of_closed left closed]
  rfl

theorem putAll_of_chunk_zero (offered : bytes ≠ []) (stuck : s.chunk = some 0) :
    s.putAll bytes =
      (.error (if s.limit = some s.kept.size then .closed else .nothingTaken), s) := by
  have nothing : s.taken bytes = [] := (taken_eq_nil_iff _ offered).2 (.inl stuck)
  split
  next closed => exact putAll_of_closed offered closed
  next going => exact putAll_of_takes_nothing offered going nothing

/-- How many bytes are taken at a time makes no difference, as long as there are some. -/
theorem putAll_chunk {chunk chunk' limit : Option Nat} (alike : chunk' = some 0 ↔ chunk = some 0)
    (kept : Array UInt8) (bytes : List UInt8) :
    (putAll ⟨chunk', limit, kept⟩ bytes).1 = (putAll ⟨chunk, limit, kept⟩ bytes).1 ∧
      (putAll ⟨chunk', limit, kept⟩ bytes).2.kept = (putAll ⟨chunk, limit, kept⟩ bytes).2.kept := by
  induction bytes generalizing kept with
  | nil => exact ⟨rfl, rfl⟩
  | cons byte bytes ih =>
    have nothing :
        taken ⟨chunk', limit, kept⟩ [byte] = [] ↔ taken ⟨chunk, limit, kept⟩ [byte] = [] := by
      simp only [taken_eq_nil_iff _ (List.cons_ne_nil byte []), alike]
    obtain ⟨result, left⟩ := ih (kept ++ [byte])
    simp only [putAll, put, keep, nothing]
    split
    · exact ⟨rfl, rfl⟩
    split
    · exact ⟨rfl, rfl⟩
    · simp only [andThen_ok, result, left]
      trivial

theorem kept_putAll_bounded (chunk : Option Nat) (limit : Nat) (bytes : List UInt8) :
    ((bounded chunk (some limit)).putAll bytes).2.kept.toList <+: bytes ∧
      ((bounded chunk (some limit)).putAll bytes).2.kept.toList.length ≤ limit := by
  by_cases offered : bytes = []
  · simp [offered, putAll, bounded]
  by_cases stuck : chunk = some 0
  · rw [putAll_of_chunk_zero offered stuck]
    simp [bounded]
  by_cases short : limit < bytes.length
  · rw [putAll_of_limit_lt (n := limit) stuck rfl (Nat.zero_le _) (by simpa [bounded] using short)]
    have kept : ((bounded chunk (some limit)).keep
        (bytes.take (limit - (bounded chunk (some limit)).kept.size))).kept.toList =
        bytes.take limit := by simp [keep, bounded]
    rw [kept]
    constructor
    · exact List.take_prefix limit bytes
    · exact List.length_take_le limit bytes
  · rw [putAll_of_fits stuck (by simpa [Fits, bounded] using short)]
    simpa [keep, bounded] using short

end Sink

open Sink

/-- A printed tree reaches an empty sink whole if the limit allows, and up to the limit otherwise;
a sink that takes no bytes at a time keeps nothing. The pieces in which the text comes make no
difference, nor does the number of bytes that are taken at a time as long as there are some. -/
theorem Tree.writeTo_bounded (t : Tree) (chunk limit : Option Nat) :
    let bytes := Text.utf8Bytes t.text.toList
    let written := t.writeTo (.bounded chunk limit)
    (bytes = [] → written = (.ok 0, .bounded chunk limit)) ∧
    (bytes ≠ [] → chunk = some 0 →
      written = (.error (if limit = some 0 then .closed else .nothingTaken),
        .bounded chunk limit)) ∧
    (chunk ≠ some 0 → (∀ n ∈ limit, bytes.length ≤ n) →
      written.1 = .ok bytes.length ∧ written.2.kept.toList = bytes) ∧
    (chunk ≠ some 0 → ∀ n ∈ limit, n < bytes.length →
      written.1 = .error .closed ∧ written.2.kept.toList = bytes.take n) ∧
    ∀ pieces chunk', String.join pieces = t.text → (chunk' = some 0 ↔ chunk = some 0) →
      ((Sink.bounded chunk' limit).writePieces pieces).1 = written.1 ∧
      ((Sink.bounded chunk' limit).writePieces pieces).2.kept = written.2.kept := by
  intro bytes written
  have all : written = (bounded chunk limit).putAll bytes := writePieces_eq _ _
  have empty : (bounded chunk limit).kept.size = 0 := rfl
  rw [all]
  refine ⟨?_, ?_, ?_, ?_, ?_⟩
  · intro nothing
    rw [nothing, putAll]
  · intro offered stuck
    exact putAll_of_chunk_zero offered stuck
  · intro takes room
    rw [putAll_of_fits takes (by simpa [Fits, bounded] using room)]
    simp [keep, bounded]
  · intro takes n limit short
    rw [putAll_of_limit_lt takes limit (by omega) (by omega)]
    simp [keep, bounded]
  · intro pieces chunk' text alike
    rw [writePieces_eq, text]
    exact putAll_chunk alike #[] bytes

/-- The limit falls within the second character. -/
theorem Tree.writeTo_bounded_in_character :
    let t : Tree := .list [.symbol "π", .number (-9)]
    let written := t.writeTo (.bounded (some 3) (some 2))
    2 < (Text.utf8Bytes t.text.toList).length ∧
      written.1 = .error .closed ∧ written.2.kept.toList = [0x28, 0xCF] := by
  intro t written
  have bytes : Text.utf8Bytes (Tree.list [.symbol "π", .number (-9)]).text.toList =
      [0x28, 0xCF, 0x80, 0x20, 0x2D, 0x39, 0x29] := by decide
  have short : 2 < (Text.utf8Bytes t.text.toList).length := by simp [t, bytes]
  obtain ⟨-, -, -, cut, -⟩ := t.writeTo_bounded (some 3) (some 2)
  obtain ⟨failed, kept⟩ := cut (by decide) 2 rfl short
  refine ⟨short, failed, kept.trans ?_⟩
  simp [t, bytes]

end Sexp
