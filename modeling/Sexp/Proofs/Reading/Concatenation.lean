import Sexp.Proofs.Reading.Grammar
import Sexp.Proofs.Reading.Items

/-!
# Reading one text after another

Reading depends on the unread text alone: further on in a longer text the same forms are read, and
a fault names a byte that lies further on by as much (`read_shift`). What follows a form does not
matter either, if no atom goes on with it (`read_extend`). So the items of two texts with blanks
between them are those of the first and then those of the second, unless the first text ends
within a list.
-/

namespace Sexp

/-- The fault in a text with `k` bytes more before it. -/
def ReadError.shift (k : Nat) : ReadError → ReadError
  | .endOfInput => .endOfInput
  | .unclosed opened => .unclosed (opened + k)
  | .unmatchedClose offset => .unmatchedClose (offset + k)

namespace Reader

def shift (k : Nat) (r : Reader) : Reader :=
  ⟨r.unread, r.offset + k⟩

/-- The position in a text that goes on with `cs`. -/
def extend (cs : List Char) (r : Reader) : Reader :=
  ⟨r.unread ++ cs, r.offset⟩

def Attempt.shift (k : Nat) (a : Attempt α) : Attempt α :=
  ⟨a.result.mapError (·.shift k), a.after.shift k⟩

variable {k : Nat} {r s : Reader} {cs ds w : List Char}

theorem skipWhile_shift (p : Char → Bool) (k : Nat) (r : Reader) :
    (r.shift k).skipWhile p = (r.skipWhile p).shift k := by
  simp only [skipWhile, shift, mk.injEq, true_and]
  omega

theorem skipBlank_shift (k : Nat) (r : Reader) : (r.shift k).skipBlank = r.skipBlank.shift k :=
  skipWhile_shift _ k r

theorem unread_skipBlank_shift : (r.shift k).skipBlank.unread = r.skipBlank.unread := by
  rw [skipBlank_shift]
  rfl

theorem skipOne_shift (k : Nat) (r : Reader) : (r.shift k).skipOne = r.skipOne.shift k := by
  simp only [skipOne, shift, mk.injEq, true_and]
  omega

theorem shift_map (a : Attempt α) (f : α → β) : (a.map f).shift k = (a.shift k).map f := by
  obtain ⟨result, s⟩ := a
  cases result <;> rfl

/-- A list is told where it was opened, so that moves along with the position. -/
theorem attempts_shift (k : Nat) (r : Reader) :
    (r.shift k).read = r.read.shift k ∧
      ∀ opened, (r.shift k).elements (opened + k) = (r.elements opened).shift k := by
  apply read_induction (fun r a => (r.shift k).read = a.shift k)
    (fun opened r a => (r.shift k).elements (opened + k) = a.shift k)
  case form_end =>
    intro r unread
    rw [read_of_end (r := r.shift k) (unread_skipBlank_shift.trans unread), skipBlank_shift]
    rfl
  case form_close =>
    intro r cs unread
    rw [read_of_close (r := r.shift k) (unread_skipBlank_shift.trans unread), skipBlank_shift,
      skipOne_shift]
    rfl
  case form_open =>
    intro r cs a unread inside
    rw [read_of_open (r := r.shift k) (unread_skipBlank_shift.trans unread), skipBlank_shift,
      skipOne_shift, shift_map, ← inside]
    rfl
  case form_atom =>
    intro r c cs unread close opening
    rw [read_of_atom (r := r.shift k) (unread_skipBlank_shift.trans unread) close opening,
      skipBlank_shift, skipAtom, skipWhile_shift]
    rfl
  case inside_end =>
    intro opened r unread
    rw [elements_of_end (r := r.shift k) (unread_skipBlank_shift.trans unread), skipBlank_shift]
    rfl
  case inside_close =>
    intro opened r cs unread
    rw [elements_of_close (r := r.shift k) (unread_skipBlank_shift.trans unread),
      skipBlank_shift, skipOne_shift]
    rfl
  case inside_error =>
    intro opened r c cs e s unread close form
    rw [elements_of_form (r := r.shift k) (unread_skipBlank_shift.trans unread) close, form]
    rfl
  case inside_form =>
    intro opened r c cs tree s a unread close reading form inside
    rw [elements_of_form (r := r.shift k) (unread_skipBlank_shift.trans unread) close, form,
      shift_map, ← inside]
    rfl

theorem read_shift (k : Nat) (r : Reader) : (r.shift k).read = r.read.shift k :=
  (attempts_shift k r).1

theorem items_shift (k : Nat) (r : Reader) :
    (r.shift k).items = r.items.map (·.mapError (·.shift k)) := by
  induction r using items_induction with
  | last r unread =>
    rw [items_of_end unread, items_of_end (unread_skipBlank_shift.trans unread), List.map_nil]
  | more r more ih =>
    have shifted : (r.shift k).read.result ≠ .error .endOfInput := by
      rw [ne_eq, read_eq_endOfInput_iff, unread_skipBlank_shift, ← read_eq_endOfInput_iff]
      exact more
    rw [items_of_read more, items_of_read shifted, read_shift, List.map_cons]
    exact congrArg _ ih

theorem Passes.extend (passes : r.Passes ds s) (cs : List Char) :
    (r.extend cs).Passes ds (s.extend cs) := by
  constructor
  · simp [Reader.extend, passes.unread]
  · exact passes.offset

theorem Stops.append {p : Char → Bool} (first : Stops p ds) (later : Stops p cs) :
    Stops p (ds ++ cs) := by
  cases ds with
  | nil => exact later
  | cons d ds => exact first

theorem skipBlank_extend (more : r.skipBlank.unread ≠ []) (cs : List Char) :
    (r.extend cs).skipBlank = r.skipBlank.extend cs := by
  obtain ⟨ds, passes, kind, stops⟩ := skipWhile_eq_iff.1 (rfl : r.skipBlank = _)
  refine skipWhile_eq_iff.2 ⟨ds, passes.extend cs, kind, ?_⟩
  obtain ⟨c, es, unread⟩ := List.exists_cons_of_ne_nil more
  rw [unread] at stops
  simpa [Reader.extend, unread, Stops] using stops

theorem read_extend (more : r.read.result ≠ .error .endOfInput)
    (closed : ∀ opened, r.read.result ≠ .error (.unclosed opened)) (stops : Stops isAtomChar cs) :
    (r.extend cs).read = ⟨r.read.result, r.read.after.extend cs⟩ := by
  cases outcome : r.read.result with
  | ok t =>
    obtain ⟨w, f, passes, blank, form, ends⟩ := r.spells_of_attempts.1 t outcome
    exact form.read_eq blank (passes.extend cs) fun text => (ends text).append stops
  | error e =>
    cases e with
    | endOfInput => exact absurd outcome more
    | unclosed opened => exact absurd outcome (closed opened)
    | unmatchedClose offset =>
      obtain ⟨⟨ds, close⟩, rfl⟩ := (r.read_eq_unmatchedClose_iff offset).1 outcome
      have same : (r.extend cs).skipBlank = r.skipBlank.extend cs :=
        skipBlank_extend (by simp [close]) cs
      have close' : (r.extend cs).skipBlank.unread = ')' :: (ds ++ cs) := by
        rw [same]
        simp [Reader.extend, close]
      rw [read_of_close close, read_of_close close', skipOne_of_unread close,
        skipOne_of_unread close', same]
      rfl

/-- Where a text goes on after blanks, so do its items, unless it ends within a list. -/
theorem items_extend (blank : Blank w) (apart : w ≠ []) (cs : List Char) (r : Reader)
    (closed : ∀ opened, r.items.getLast? ≠ some (.error (.unclosed opened))) :
    (r.extend (w ++ cs)).items =
      r.items ++ items ⟨cs, r.offset + Text.utf8Size (r.unread ++ w)⟩ := by
  induction r using items_induction with
  | last r unread =>
    have passes : (r.extend (w ++ cs)).Passes (r.unread ++ w)
        ⟨cs, r.offset + Text.utf8Size (r.unread ++ w)⟩ := ⟨by simp [Reader.extend], rfl⟩
    have rest : Blank r.unread := by
      have skipped := r.passes_skipBlank.unread
      rw [unread, List.append_nil] at skipped
      exact skipped ▸ blank_takeWhile r.unread
    -- What the first text ends with is skipped together with the blanks after it.
    rw [items_of_end unread, List.nil_append, items_of_blank (rest.append blank) passes]
  | more r more ih =>
    have here : ∀ opened, r.read.result ≠ .error (.unclosed opened) := by
      intro opened fault
      apply closed opened
      rw [items_of_unclosed fault]
      rfl
    have later : ∀ opened, r.read.after.items.getLast? ≠ some (.error (.unclosed opened)) := by
      intro opened last
      apply closed opened
      rw [items_of_read more, List.getLast?_cons, last]
      rfl
    have step := read_extend more here (blank.stops apart cs)
    have more' : (r.extend (w ++ cs)).read.result ≠ .error .endOfInput := by
      rw [step]
      exact more
    obtain ⟨ds, passes⟩ := (passes_attempts r).1
    have offset : r.read.after.offset + Text.utf8Size (r.read.after.unread ++ w) =
        r.offset + Text.utf8Size (r.unread ++ w) := by
      rw [passes.offset, passes.unread]
      simp [Nat.add_assoc]
    rw [items_of_read more', step, items_of_read more, List.cons_append, ← offset, ← ih later]

theorem items_ofString_append {a w b : String} (blank : Blank w.toList) (apart : w ≠ "")
    (closed : ∀ opened, (ofString a).items.getLast? ≠ some (.error (.unclosed opened))) :
    (ofString (a ++ w ++ b)).items = (ofString a).items ++
      (ofString b).items.map (·.mapError (·.shift (Text.utf8Size (a ++ w).toList))) := by
  have text : ofString (a ++ w ++ b) = (ofString a).extend (w.toList ++ b.toList) := by
    simp [ofString, extend]
  have second : (ofString b).shift (Text.utf8Size (a ++ w).toList) =
      ⟨b.toList, (ofString a).offset + Text.utf8Size ((ofString a).unread ++ w.toList)⟩ := by
    simp [ofString, shift]
  rw [text, items_extend blank (mt String.toList_eq_nil_iff.1 apart) _ _ closed, ← second,
    items_shift]

end Reader

/-- Two texts with blanks between them are read as the first and then the second, of which the
faults are found further on by what comes before it, unless the first ends within a list. If all
forms of the first are read, then so are those of the second after them, or its first fault is
the fault of the whole. -/
theorem items_append (a w b : String) (blank : Blank w.toList) (apart : w ≠ "") :
    ((∀ opened, (Reader.ofString a).items.getLast? ≠ some (.error (.unclosed opened))) →
      (Reader.ofString (a ++ w ++ b)).items = (Reader.ofString a).items ++
        (Reader.ofString b).items.map (·.mapError (·.shift (Text.utf8Size (a ++ w).toList)))) ∧
    ∀ ts, Tree.parseAll a = .ok ts →
      Tree.parseAll (a ++ w ++ b) =
        match Tree.parseAll b with
        | .ok us => .ok (ts ++ us)
        | .error e => .error (e.shift (Text.utf8Size (a ++ w).toList)) := by
  refine ⟨Reader.items_ofString_append blank apart, fun ts whole => ?_⟩
  have first : (Reader.ofString a).items = ts.map .ok := Tree.parseAll_eq_ok_iff.1 whole
  have closed : ∀ opened, (Reader.ofString a).items.getLast? ≠ some (.error (.unclosed opened)) := by
    intro opened last
    rw [first, List.getLast?_map] at last
    cases found : ts.getLast? <;> simp [found] at last
  rw [Tree.parseAll_eq_collect, Reader.items_ofString_append blank apart closed, first,
    collect_append, collect_map_mapError, ← Tree.parseAll_eq_collect]
  cases Tree.parseAll b <;> rfl

/-- A blank of three bytes after a stray `)` in the one case and after a form in the other. -/
theorem items_append_stray_close :
    Blank "\u2003".toList ∧ "\u2003" ≠ "" ∧
      (Reader.ofString ("(x) )" ++ "\u2003" ++ ") (y")).items =
        [.ok (.list [.symbol "x"]), .error (.unmatchedClose 4), .error (.unmatchedClose 8),
          .error (.unclosed 10)] ∧
      Tree.parseAll ("(x)" ++ "\u2003" ++ ") (y") = .error (.unmatchedClose 6) := by
  have blank : Blank "\u2003".toList := .of_all (by decide)
  have apart : "\u2003" ≠ "" := by decide
  have form (offset : Nat) (cs : List Char) :
      Reader.read ⟨'(' :: 'x' :: ')' :: cs, offset⟩ =
        ⟨.ok (.list [.symbol "x"]), ⟨cs, offset + 3⟩⟩ := by
    have atom : Reader.read ⟨'x' :: ')' :: cs, offset + 1⟩ =
        ⟨.ok (.symbol "x"), ⟨')' :: cs, offset + 2⟩⟩ :=
      Reader.read_of_atom rfl (by decide) (by decide)
    have close : Reader.elements offset ⟨')' :: cs, offset + 2⟩ = ⟨.ok [], ⟨cs, offset + 3⟩⟩ :=
      Reader.elements_of_close rfl
    have opening : Reader.read ⟨'(' :: 'x' :: ')' :: cs, offset⟩ =
        (Reader.elements offset ⟨'x' :: ')' :: cs, offset + 1⟩).map .list :=
      Reader.read_of_open rfl
    rw [opening, Reader.elements_of_form rfl (by decide), atom]
    simp only [Reader.Attempt.andThen, close]
    rfl
  have stray : Reader.read ⟨[' ', ')'], 3⟩ = ⟨.error (.unmatchedClose 4), ⟨[], 5⟩⟩ :=
    Reader.read_of_close rfl
  have first : (Reader.ofString "(x) )").items =
      [.ok (.list [.symbol "x"]), .error (.unmatchedClose 4)] := by
    have reading : (Reader.ofString "(x) )").read = _ := form 0 [' ', ')']
    rw [Reader.items_of_read_eq reading nofun, Reader.items_of_read_eq stray nofun,
      Reader.items_of_end rfl]
  have close : (Reader.ofString ") (y").read =
      ⟨.error (.unmatchedClose 0), ⟨[' ', '(', 'y'], 1⟩⟩ := Reader.read_of_close rfl
  have cut : Reader.read ⟨[' ', '(', 'y'], 1⟩ = ⟨.error (.unclosed 2), ⟨[], 4⟩⟩ :=
    (@Reader.read_list_eq_scan ⟨[' ', '(', 'y'], 1⟩ ['y'] rfl).1
  have second : (Reader.ofString ") (y").items =
      [.error (.unmatchedClose 0), .error (.unclosed 2)] := by
    rw [Reader.items_of_read_eq close nofun, Reader.items_of_unclosed (by rw [cut])]
  have whole : Tree.parseAll "(x)" = .ok [.list [.symbol "x"]] := by
    have reading : (Reader.ofString "(x)").read = _ := form 0 []
    rw [Tree.parseAll_eq_ok_iff, Reader.items_of_read_eq reading nofun, Reader.items_of_end rfl]
    rfl
  refine ⟨blank, apart, ?_, ?_⟩
  · rw [(items_append _ _ _ blank apart).1 (by simp [first]), first, second]
    rfl
  · rw [(items_append _ _ _ blank apart).2 _ whole, Tree.parseAll_eq_collect, second]
    rfl

end Sexp
