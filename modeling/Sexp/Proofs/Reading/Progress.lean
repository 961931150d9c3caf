import Mathlib.Data.List.Chain
import Sexp.Proofs.Reading.Items

/-!
# Progress through a text

Readers of one text are asked in any order, and a reader may be copied on the way. Wherever they
come, each stands between two characters of the text and has the rest of it still to read. Only a
clean end leaves a reader where it is, so that neither the elements of a list nor the items of a
text can go on for longer than there are characters.
-/

namespace Sexp

namespace Reader

/-- The reader stands between two characters of the text, and what it has not read is the text from
its byte on. -/
structure StandsIn (source : String) (r : Reader) : Prop where
  le : r.offset ≤ source.utf8ByteSize
  boundary : String.Pos.Raw.IsValid source ⟨r.offset⟩
  rest : r.rest.toByteArray = source.toByteArray.extract r.offset source.utf8ByteSize

inductive Request where
  | read
  | next
  | drain
  | rest
  | clone
deriving DecidableEq

def Request.after : Request → Reader → Reader
  | .read, r => r.read.after
  | .next, r => r.next.2
  | .drain, r => r.drain.2
  | .rest, r | .clone, r => r

def Request.copies : Request → Reader → List Reader
  | .clone, r => [r]
  | .read, _ | .next, _ | .drain, _ | .rest, _ => []

/-- The readers after a request to the one with the given number. A copy gets the next number, and
where there is no such reader nothing happens. -/
def serve (readers : List Reader) (call : Nat × Request) : List Reader :=
  match readers[call.1]? with
  | none => readers
  | some r => readers.set call.1 (call.2.after r) ++ call.2.copies r

/-- The readers of a text after requests in order, of which the first finds a single new reader. -/
def readersAfter (source : String) (calls : List (Nat × Request)) : List Reader :=
  calls.foldl serve [.ofString source]

variable {r s t : Reader} {cs : List Char} {source : String} {readers : List Reader}

theorem standsIn_of_append (passed : String) (whole : source = passed ++ r.rest)
    (offset : r.offset = passed.utf8ByteSize) : r.StandsIn source := by
  subst whole
  constructor
  · rw [offset, String.utf8ByteSize_append]
    exact Nat.le_add_right _ _
  · exact String.Pos.Raw.isValid_iff_exists_append.2
      ⟨passed, r.rest, rfl, String.Pos.Raw.ext offset⟩
  · rw [String.toByteArray_append]
    symm
    exact ByteArray.extract_append_eq_right offset String.utf8ByteSize_append

theorem Passes.standsIn (passes : (ofString source).Passes cs r) : r.StandsIn source := by
  apply standsIn_of_append (.ofList cs)
  · rw [rest, ← String.ofList_append, ← passes.toList_eq, String.ofList_toList]
  · rw [Text.utf8ByteSize_ofList, passes.offset_eq]

theorem Passes.offset_of_endOfInput (passes : (ofString source).Passes cs r)
    (clean : r.read.result = .error .endOfInput) : r.read.after.offset = source.utf8ByteSize := by
  have unread := (read_eq_endOfInput_iff r).1 clean
  have last := (passes.trans r.passes_skipBlank).eq_skipAll unread
  rw [read_of_end unread, last, (passes_skipAll _).offset_eq, ← Text.utf8ByteSize_ofList, ofString,
    String.ofList_toList]

/-- From the head of the loop over a list's elements to where it is entered or comes round next:
before the first element of an element that is itself a list, or behind an element. -/
inductive Turn : Reader → Reader → Prop where
  | inner {r : Reader} {cs : List Char} :
      r.skipBlank.unread = '(' :: cs → Turn r r.skipBlank.skipOne
  | outer {r s : Reader} {c : Char} {cs : List Char} {t : Tree} :
      r.skipBlank.unread = c :: cs → c ≠ ')' → r.read = ⟨.ok t, s⟩ → Turn r s

/-- The reader has one more item to yield and stands at `s` then. -/
def Yields (r s : Reader) : Prop :=
  ∃ item, r.next = (some item, s)

theorem Turn.passes (turn : Turn r s) : ∃ cs, r.Passes cs s := by
  cases turn with
  | inner opening => exact ⟨_, passes_skipBlank_skipOne opening⟩
  | outer unread close reading =>
    obtain ⟨cs, passes⟩ := (passes_attempts r).1
    rw [reading] at passes
    exact ⟨cs, passes⟩

theorem Turn.shorter (turn : Turn r s) : s.unread.length < r.unread.length := by
  cases turn with
  | inner opening => exact length_skipOne_lt_of_skipBlank opening
  | outer unread close reading =>
    have advances := r.read_advances
    rw [reading] at advances
    exact advances.lt _ rfl

theorem Yields.shorter (yields : Yields r s) : s.unread.length < r.unread.length := by
  obtain ⟨item, next⟩ := yields
  exact length_lt_of_next next

/-- What leaves less unread every time cannot be done more often than there are characters. -/
theorem length_le_of_isChain {step : Reader → Reader → Prop} {rs : List Reader}
    (shorter : ∀ {r s}, step r s → s.unread.length < r.unread.length)
    (chain : List.IsChain step (r :: rs)) : rs.length ≤ r.unread.length := by
  induction rs generalizing r with
  | nil => exact Nat.zero_le _
  | cons s rs ih =>
    rw [List.isChain_cons_cons] at chain
    have less := shorter chain.1
    have later := ih chain.2
    rw [List.length_cons]
    omega

theorem standsIn_of_isChain {rs : List Reader} (passes : (ofString source).Passes cs r)
    (chain : List.IsChain Turn (r :: rs)) : ∀ s ∈ rs, s.StandsIn source := by
  induction rs generalizing r cs with
  | nil => nofun
  | cons s rs ih =>
    rw [List.isChain_cons_cons] at chain
    obtain ⟨ds, further⟩ := chain.1.passes
    have here := passes.trans further
    exact List.forall_mem_cons.2 ⟨here.standsIn, ih here chain.2⟩

theorem isChain_drain (r : Reader) : List.IsChain Yields (r :: r.drain.1.map (·.after)) := by
  induction r using items_induction with
  | last r unread =>
    rw [drain_of_none (next_of_end unread)]
    exact .singleton r
  | more r more ih =>
    have next := next_of_read more
    rw [drain_of_some next]
    exact .cons_cons ⟨_, next⟩ ih

theorem passes_drain (r : Reader) : ∃ cs, r.Passes cs r.drain.2 := by
  induction r using items_induction with
  | last r unread =>
    rw [drain_of_none (next_of_end unread)]
    exact ⟨_, r.passes_skipBlank⟩
  | more r more ih =>
    obtain ⟨cs, first⟩ := (passes_attempts r).1
    obtain ⟨ds, later⟩ := ih
    rw [drain_of_some (next_of_read more)]
    exact ⟨_, first.trans later⟩

theorem Request.passes (request : Request) (r : Reader) : ∃ cs, r.Passes cs (request.after r) := by
  cases request with
  | read => exact (passes_attempts r).1
  | next =>
    by_cases clean : r.read.result = .error .endOfInput
    · have next := next_of_end ((read_eq_endOfInput_iff r).1 clean)
      exact ⟨_, by rw [after, next]; exact r.passes_skipBlank⟩
    · obtain ⟨cs, passes⟩ := (passes_attempts r).1
      exact ⟨cs, by rw [after, next_of_read clean]; exact passes⟩
  | drain => exact passes_drain r
  | rest | clone => exact ⟨[], .refl r⟩

theorem eq_of_mem_copies {request : Request} (mem : s ∈ request.copies r) : s = r := by
  cases request with
  | clone => exact List.mem_singleton.1 mem
  | read | next | drain | rest => contradiction

/-- A reader keeps its number and only goes forward. -/
theorem exists_getElem?_serve {i : Nat} (found : readers[i]? = some r) (call : Nat × Request) :
    ∃ s, (serve readers call)[i]? = some s ∧ ∃ cs, r.Passes cs s := by
  obtain ⟨j, request⟩ := call
  have bound : i < readers.length := (List.getElem?_eq_some_iff.1 found).1
  unfold serve
  split
  next => exact ⟨r, found, [], .refl r⟩
  next asked asks =>
    rw [List.getElem?_append_left (by rwa [List.length_set])]
    by_cases same : j = i
    · subst same
      obtain rfl : r = asked := Option.some.inj (found.symm.trans asks)
      exact ⟨_, List.getElem?_set_self bound, request.passes r⟩
    · exact ⟨r, by rwa [List.getElem?_set_ne same], [], .refl r⟩

theorem exists_of_mem_serve {call : Nat × Request} (mem : s ∈ serve readers call) :
    ∃ r ∈ readers, ∃ cs, r.Passes cs s := by
  unfold serve at mem
  split at mem
  next => exact ⟨s, mem, [], .refl s⟩
  next r asks =>
    have asked : r ∈ readers := List.mem_of_getElem? asks
    rcases List.mem_append.1 mem with mem | copy
    · rcases List.mem_or_eq_of_mem_set mem with old | rfl
      · exact ⟨s, old, [], .refl s⟩
      · exact ⟨r, asked, call.2.passes r⟩
    · obtain rfl := eq_of_mem_copies copy
      exact ⟨s, asked, [], .refl s⟩

theorem exists_getElem?_foldl_serve {i : Nat} (found : readers[i]? = some r)
    (calls : List (Nat × Request)) :
    ∃ s, (calls.foldl serve readers)[i]? = some s ∧ ∃ cs, r.Passes cs s := by
  induction calls generalizing readers r with
  | nil => exact ⟨r, found, [], .refl r⟩
  | cons call calls ih =>
    obtain ⟨s, found, cs, first⟩ := exists_getElem?_serve found call
    obtain ⟨t, found, ds, later⟩ := ih found
    exact ⟨t, found, _, first.trans later⟩

theorem exists_of_mem_foldl_serve {calls : List (Nat × Request)}
    (mem : s ∈ calls.foldl serve readers) : ∃ r ∈ readers, ∃ cs, r.Passes cs s := by
  induction calls generalizing readers with
  | nil => exact ⟨s, mem, [], .refl s⟩
  | cons call calls ih =>
    obtain ⟨t, mem, ds, later⟩ := ih mem
    obtain ⟨r, mem, cs, first⟩ := exists_of_mem_serve mem
    exact ⟨r, mem, _, first.trans later⟩

theorem passes_of_mem_readersAfter {calls : List (Nat × Request)}
    (mem : r ∈ readersAfter source calls) : ∃ cs, (ofString source).Passes cs r := by
  obtain ⟨s, mem, passes⟩ := exists_of_mem_foldl_serve mem
  obtain rfl := List.mem_singleton.1 mem
  exact passes

/-- Whatever is asked of the readers of a text, each of them stands in the text and goes forward
only. An attempt to read that does not find the clean end takes the reader on, and the clean end is
that of the text. The loop over the elements of a list stays in the text and comes round no more
often than there are unread characters, lists within the list included, and there are no more items
than that to yield. -/
theorem reader_progress {calls : List (Nat × Request)} {i : Nat}
    (reached : (readersAfter source calls)[i]? = some r) :
    r.StandsIn source ∧
    (∀ more, ∃ s, (readersAfter source (calls ++ more))[i]? = some s ∧ r.offset ≤ s.offset) ∧
    (r.read.result ≠ .error .endOfInput → r.offset + 1 ≤ r.read.after.offset) ∧
    (r.read.result = .error .endOfInput → r.read.after.offset = source.utf8ByteSize) ∧
    (∀ rs, List.IsChain Turn (r :: rs) →
      (∀ s ∈ rs, s.StandsIn source) ∧ rs.length ≤ r.rest.length) ∧
    (∀ rs, List.IsChain Yields (r :: rs) → rs.length ≤ r.rest.length) ∧
    r.drain.1.length ≤ r.rest.length := by
  obtain ⟨cs, passes⟩ := passes_of_mem_readersAfter (List.mem_of_getElem? reached)
  have size : r.rest.length = r.unread.length := by rw [rest, String.length_ofList]
  rw [size]
  refine ⟨passes.standsIn, ?_, ?_, ?_, ?_, ?_, ?_⟩
  · intro more
    rw [readersAfter, List.foldl_append]
    obtain ⟨s, found, ds, later⟩ := exists_getElem?_foldl_serve reached more
    exact ⟨s, found, later.offset_le⟩
  · intro further
    obtain ⟨ds, attempt⟩ := (passes_attempts r).1
    exact attempt.offset_lt (length_lt_of_read further)
  · exact passes.offset_of_endOfInput
  · intro rs chain
    exact ⟨standsIn_of_isChain passes chain, length_le_of_isChain Turn.shorter chain⟩
  · intro rs chain
    exact length_le_of_isChain Yields.shorter chain
  · have bound := length_le_of_isChain Yields.shorter (isChain_drain r)
    rwa [List.length_map] at bound

/-- The copy stays at the start while the first reader passes a character of two bytes. -/
theorem reader_progress_two_bytes :
    let calls : List (Nat × Request) := [(0, .clone), (0, .read), (1, .rest)]
    let r : Reader := ⟨[')', 'x'], 2⟩
    readersAfter "é)x" calls = [r, ofString "é)x"] ∧ r.StandsIn "é)x" ∧
      r.offset + 1 ≤ r.read.after.offset ∧ r.drain.1.length ≤ 2 := by
  intro calls r
  have atom : (ofString "é)x").read = ⟨.ok (.symbol "é"), r⟩ :=
    read_of_atom rfl (by decide) (by decide)
  have moved : serve [ofString "é)x", ofString "é)x"] (0, .read) = [r, ofString "é)x"] := by
    change [(ofString "é)x").read.after, ofString "é)x"] = _
    rw [atom]
  have readers : readersAfter "é)x" calls = [r, ofString "é)x"] := by
    change serve (serve [ofString "é)x", ofString "é)x"] (0, .read)) (1, .rest) = _
    rw [moved]
    rfl
  have reached : (readersAfter "é)x" calls)[0]? = some r := by rw [readers]; rfl
  have stray : r.read = ⟨.error (.unmatchedClose 2), ⟨['x'], 3⟩⟩ := read_of_close rfl
  obtain ⟨stands, -, further, -, -, -, items⟩ := reader_progress reached
  have size : r.rest.length = 2 := String.length_ofList
  exact ⟨readers, stands, further (by rw [stray]; nofun), size ▸ items⟩

end Reader

end Sexp
