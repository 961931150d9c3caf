import Sexp.Proofs.Reading.Concatenation

/-!
# Completing an unterminated list

The stack that a scan leaves holds every parenthesis that is still to be closed, and the fault that
is reported is only its top. Each `)` more takes one off, so the fault moves outwards until the
first list is whole, and further ones are left unread. An atom cut off by the end of the text makes
no difference to this, as the first `)` ends it.
-/

namespace Sexp

def OpensAt (text : List Char) (offset : Nat) : Prop :=
  ∃ before after, text = before ++ '(' :: after ∧ offset = Text.utf8Size before

/-- Parentheses of the text, innermost first, down to the outermost one. -/
structure Nested (text : List Char) (outermost : Nat) (opened : List Nat) : Prop where
  descending : opened.Pairwise (· > ·)
  opens : ∀ o ∈ opened, OpensAt text o
  last : opened.getLast? = some outermost

def closing (k : Nat) : String :=
  .ofList (.replicate k ')')

/-- With fewer `)` after it than there are parentheses given, the text ends within the next of
them; with as many, it is read as a list, and those beyond are left unread. -/
structure Completes (source : String) (opened : List Nat) : Prop where
  short : ∀ k (inside : k < opened.length),
    Tree.parse (source ++ closing k) = .error (.unclosed opened[k])
  enough : ∃ ts, ∀ extra, (Reader.ofString (source ++ closing (opened.length + extra))).read =
    ⟨.ok (.list ts),
      ⟨.replicate extra ')', Text.utf8Size source.toList + opened.length⟩⟩

variable {text cs ds more : List Char} {o k offset outermost top : Nat} {opened below : List Nat}
  {c : Char} {s : Scan} {r : Reader} {inAtom : Bool} {source : String}

theorem OpensAt.append (opens : OpensAt text o) (more : List Char) : OpensAt (text ++ more) o := by
  obtain ⟨before, after, rfl, rfl⟩ := opens
  exact ⟨before, after ++ more, by simp, rfl⟩

theorem OpensAt.lt (opens : OpensAt text o) : o < Text.utf8Size text := by
  obtain ⟨before, after, rfl, rfl⟩ := opens
  have size : 0 < Char.utf8Size '(' := by decide
  simp
  omega

namespace Nested

theorem append (nested : Nested text outermost opened) (more : List Char) :
    Nested (text ++ more) outermost opened :=
  ⟨nested.descending, fun o mem => (nested.opens o mem).append more, nested.last⟩

theorem push (nested : Nested text outermost opened) :
    Nested (text ++ ['(']) outermost (Text.utf8Size text :: opened) := by
  have longer := nested.append ['(']
  refine ⟨List.pairwise_cons.2 ⟨fun o mem => (nested.opens o mem).lt, nested.descending⟩, ?_, ?_⟩
  · exact List.forall_mem_cons.2 ⟨⟨text, [], rfl, rfl⟩, longer.opens⟩
  · simp [List.getLast?_cons, nested.last]

theorem pop (nested : Nested text outermost opened) (still : opened.tail ≠ []) :
    Nested text outermost opened.tail := by
  refine ⟨nested.descending.tail, fun o mem => nested.opens o (List.mem_of_mem_tail mem), ?_⟩
  have last := nested.last
  match opened with
  | top :: next :: below => simpa using last

theorem step (nested : Nested text outermost s.opened) (c : Char)
    (still : c = ')' → s.opened.tail ≠ []) :
    Nested (text ++ [c]) outermost (s.step (Text.utf8Size text) c).opened := by
  unfold Scan.step
  split
  · exact nested.append [c]
  split
  next close => exact (nested.pop (still close)).append [c]
  split
  next opening =>
    rw [opening.1]
    exact nested.push
  · exact nested.append [c]

/-- A scan that comes to the end of the text leaves the parentheses nested that are open there. -/
theorem run (nested : Nested text outermost s.opened)
    (left : (s.run (Text.utf8Size text) cs).1 = top :: below) :
    Nested (text ++ cs) outermost (top :: below) := by
  induction cs generalizing s text with
  | nil => simpa [Scan.run] using left ▸ nested
  | cons c cs ih =>
    rw [Scan.run] at left
    split at left
    next => contradiction
    next going =>
      have still : c = ')' → s.opened.tail ≠ [] := fun close last =>
        going ⟨close, by simp [close, Scan.step_close, last]⟩
      have next := nested.step c still
      simpa using ih next (by simpa using left)

end Nested

namespace Scan

theorem run_append (left : (s.run offset cs).1 = top :: below) (ds : List Char) :
    ∃ inAtom, s.run offset (cs ++ ds) =
      run ⟨top :: below, inAtom⟩ (offset + Text.utf8Size cs) ds := by
  induction cs generalizing s offset with
  | nil =>
    obtain ⟨opened, inAtom⟩ := s
    obtain rfl : opened = top :: below := left
    exact ⟨inAtom, rfl⟩
  | cons c cs ih =>
    rw [run] at left
    split at left
    next => contradiction
    next going =>
      obtain ⟨inAtom, later⟩ := ih left
      refine ⟨inAtom, ?_⟩
      rw [List.cons_append, run, if_neg going, later, Text.utf8Size_cons, Nat.add_assoc]

theorem run_replicate_close (some : opened ≠ []) (bound : k ≤ opened.length) :
    run ⟨opened, inAtom⟩ offset (List.replicate k ')') = (opened.drop k, ⟨[], offset + k⟩) := by
  induction k generalizing opened inAtom offset with
  | zero => rfl
  | succ k ih =>
    obtain ⟨top, below, rfl⟩ := List.exists_cons_of_ne_nil some
    have size : Char.utf8Size ')' = 1 := by decide
    rw [List.replicate_succ, run, step_close, size]
    by_cases last : below = []
    · obtain rfl : k = 0 := by simp [last] at bound; omega
      simp [last]
    · have later : run ⟨below, false⟩ (offset + 1) (List.replicate k ')') =
          (below.drop k, ⟨[], offset + 1 + k⟩) := ih last (by simpa using bound)
      rw [if_neg fun both => last both.2, List.drop_succ_cons, Nat.add_comm k, ← Nat.add_assoc]
      exact later

end Scan

namespace Reader

/-- The scan of a text with `)` after it goes on where that of the text alone has stopped. -/
theorem scan_extend_close (opening : r.skipBlank.unread = '(' :: cs)
    (left : (r.skipBlank.scan ⟨[], false⟩).1 = opened) (some : opened ≠ [])
    (bound : k ≤ opened.length) :
    (r.extend (.replicate k ')')).skipBlank.scan ⟨[], false⟩ =
      (opened.drop k, ⟨[], r.skipAll.offset + k⟩) := by
  obtain ⟨top, below, rfl⟩ := List.exists_cons_of_ne_nil some
  obtain ⟨inAtom, later⟩ := Scan.run_append left (.replicate k ')')
  have whole : r.skipBlank.skipAll = r.skipAll := r.passes_skipBlank.skipAll_eq
  rw [skipBlank_extend (by simp [opening]), ← whole]
  exact later.trans (Scan.run_replicate_close some bound)

theorem read_extend_close (opening : r.skipBlank.unread = '(' :: cs)
    (left : (r.skipBlank.scan ⟨[], false⟩).1 = opened) (some : opened ≠ []) :
    (∀ k (inside : k < opened.length),
      (r.extend (.replicate k ')')).read.result = .error (.unclosed opened[k])) ∧
    ∃ ts, (r.extend (.replicate opened.length ')')).read =
      ⟨.ok (.list ts), ⟨[], r.skipAll.offset + opened.length⟩⟩ := by
  have opening' (k : Nat) : (r.extend (.replicate k ')')).skipBlank.unread =
      '(' :: (cs ++ .replicate k ')') := by
    rw [skipBlank_extend (by simp [opening])]
    simp [extend, opening]
  constructor
  · intro k inside
    have reading := read_list_eq_scan (opening' k)
    rw [scan_extend_close opening left some (Nat.le_of_lt inside),
      List.drop_eq_getElem_cons inside] at reading
    rw [reading.1]
  · have reading := read_list_eq_scan (opening' opened.length)
    rw [scan_extend_close opening left some (Nat.le_refl _), List.drop_length] at reading
    exact reading

end Reader

theorem Completes.length_le {others : List Nat} (first : Completes source opened)
    (second : Completes source others) : others.length ≤ opened.length := by
  refine Nat.le_of_not_lt fun inside => ?_
  obtain ⟨ts, enough⟩ := first.enough
  have fault := second.short opened.length inside
  have reading := enough 0
  rw [Tree.parse] at fault
  rw [Nat.add_zero] at reading
  rw [reading] at fault
  contradiction

theorem Completes.unique {others : List Nat} (first : Completes source opened)
    (second : Completes source others) : opened = others := by
  refine List.ext_getElem (Nat.le_antisymm (second.length_le first) (first.length_le second)) ?_
  intro k inside inside'
  have fault := (first.short k inside).symm.trans (second.short k inside')
  simpa using fault

/-- What the scan leaves open is nested down to the first parenthesis of the text. -/
theorem nested_of_scan (opening : r.skipBlank.unread = '(' :: cs) (start : r.offset = 0)
    (left : (r.skipBlank.scan ⟨[], false⟩).1 = top :: below) :
    Nested r.unread r.skipBlank.offset (top :: below) := by
  have passes := r.passes_skipBlank_skipOne opening
  have blanks := r.passes_skipBlank.offset
  have after := passes.offset
  rw [start, Nat.zero_add] at blanks after
  have first : Nested (r.unread.takeWhile Text.isBlank ++ ['(']) r.skipBlank.offset
      [r.skipBlank.offset] := by
    refine ⟨List.pairwise_singleton _ _, fun o mem => ?_, rfl⟩
    rw [List.mem_singleton.1 mem]
    exact ⟨_, [], rfl, blanks⟩
  rw [Reader.scan_of_open opening, Reader.scan, after] at left
  have whole := first.run left
  rwa [← passes.unread] at whole

theorem completes_of_scan (opening : (Reader.ofString source).skipBlank.unread = '(' :: cs)
    (left : ((Reader.ofString source).skipBlank.scan ⟨[], false⟩).1 = opened) (some : opened ≠ []) :
    Completes source opened := by
  have text (k : Nat) : Reader.ofString (source ++ closing k) =
      (Reader.ofString source).extend (.replicate k ')') := by
    simp [Reader.ofString, Reader.extend, closing]
  obtain ⟨short, ts, whole⟩ := Reader.read_extend_close opening left some
  refine ⟨fun k inside => ?_, ts, fun extra => ?_⟩
  · rw [Tree.parse, text, short k inside]
  · have further : Reader.ofString (source ++ closing (opened.length + extra)) =
        ((Reader.ofString source).extend (.replicate opened.length ')')).extend
          (.replicate extra ')') := by
      rw [text, ← List.replicate_append_replicate]
      simp [Reader.extend]
    have stops : Reader.Stops isAtomChar (List.replicate extra ')') := by
      intro c head
      rw [List.eq_of_mem_replicate (List.mem_of_mem_head? head)]
      decide
    rw [further, Reader.read_extend (by simp [whole]) (by simp [whole]) stops, whole]
    simp [Reader.extend, Reader.skipAll, Reader.ofString]

/-- A text that is cut off within a list has parentheses left open, nested down to its first
character that is not blank. Each `)` added closes one of them, so that the fault names the next one
further out. With as many as are open the text is read as a list, and any further ones are left
unread. No other parentheses have this property. -/
theorem unclosed_completion (source : String) (innermost : Nat)
    (cut : Tree.parse source = .error (.unclosed innermost)) :
    ∃ opened : List Nat, 1 ≤ opened.length ∧
      Nested source.toList (Text.utf8Size (source.toList.takeWhile Text.isBlank)) opened ∧
      Completes source opened ∧ ∀ others, Completes source others → others = opened := by
  obtain ⟨cs, opening⟩ := Reader.exists_open_of_unclosed cut
  have scanned := Reader.read_list_eq_scan opening
  split at scanned
  next =>
    obtain ⟨ts, reading⟩ := scanned
    rw [Tree.parse, reading] at cut
    contradiction
  next top below s left =>
    have opened : ((Reader.ofString source).skipBlank.scan ⟨[], false⟩).1 = top :: below := by
      rw [left]
    have completes : Completes source (top :: below) := completes_of_scan opening opened nofun
    have nested := nested_of_scan opening rfl opened
    rw [(Reader.ofString source).passes_skipBlank.offset_eq] at nested
    exact ⟨top :: below, by simp, nested, completes, fun others other => other.unique completes⟩

/-- Cut off within an atom that has a `(` of its own, which is not among those left open. -/
theorem unclosed_completion_in_atom :
    let source := " (\u00e9 (b(c"
    Tree.parse source = .error (.unclosed 5) ∧ Nested source.toList 1 [5, 1] ∧
      Completes source [5, 1] := by
  intro source
  have opening : (Reader.ofString source).skipBlank.unread =
      ['(', '\u00e9', ' ', '(', 'b', '(', 'c'] := by decide
  have left : ((Reader.ofString source).skipBlank.scan ⟨[], false⟩).1 = [5, 1] := by decide
  have known : Completes source [5, 1] := completes_of_scan opening left nofun
  have cut : Tree.parse source = .error (.unclosed 5) := known.short 0 (by decide)
  obtain ⟨opened, -, nested, completes, unique⟩ := unclosed_completion source 5 cut
  have first : Text.utf8Size (source.toList.takeWhile Text.isBlank) = 1 := by decide
  rw [first] at nested
  obtain rfl := unique _ known
  exact ⟨cut, nested, completes⟩

end Sexp
