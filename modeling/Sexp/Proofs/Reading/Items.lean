import Sexp.Proofs.Reading.Scan

/-!
# The items of a text

The items of a text are what its readings up to the clean end come to, in order; a fault among
them does not stop the next reading. All forms of a text are read exactly when every item is a
tree. Blanks before the first form make no difference (`items_of_blank`).
-/

namespace Sexp

namespace Reader

def items (r : Reader) : List (Except ReadError Tree) :=
  r.drain.1.map (·.result)

variable {r s : Reader} {w : List Char}

theorem next_of_end (unread : r.skipBlank.unread = []) : r.next = (none, r.skipBlank) := by
  rw [next, read_of_end unread]

theorem next_of_read (more : r.read.result ≠ .error .endOfInput) :
    r.next = (some r.read.result, r.read.after) := by
  unfold next
  split
  next reading => simp [reading] at more
  next reading => rw [reading]

theorem items_of_end (unread : r.skipBlank.unread = []) : r.items = [] := by
  rw [items, drain_of_none (next_of_end unread), List.map_nil]

theorem items_of_read (more : r.read.result ≠ .error .endOfInput) :
    r.items = r.read.result :: r.read.after.items := by
  rw [items, drain_of_some (next_of_read more), List.map_cons, items]

theorem items_of_read_eq {item : Except ReadError Tree} (reading : r.read = ⟨item, s⟩)
    (more : item ≠ .error .endOfInput) : r.items = item :: s.items := by
  have here : r.read.result ≠ .error .endOfInput := by
    rw [reading]
    exact more
  rw [items_of_read here, reading]

/-- Induction along the readings of a text. -/
theorem items_induction {motive : Reader → Prop}
    (last : ∀ r, r.skipBlank.unread = [] → motive r)
    (more : ∀ r, r.read.result ≠ .error .endOfInput → motive r.read.after → motive r)
    (r : Reader) : motive r := by
  induction size : r.unread.length using Nat.strongRecOn generalizing r with
  | ind n ih =>
  by_cases clean : r.read.result = .error .endOfInput
  · exact last r ((read_eq_endOfInput_iff r).1 clean)
  · have shorter := length_lt_of_read clean
    exact more r clean (ih _ (size ▸ shorter) _ rfl)

theorem items_after_read (r : Reader) : r.read.after.items = r.items.tail := by
  by_cases clean : r.read.result = .error .endOfInput
  · have unread := (read_eq_endOfInput_iff r).1 clean
    have again : r.skipBlank.skipBlank.unread = [] := by
      rw [skipBlank, skipWhile, unread, List.dropWhile_nil]
    rw [items_of_end unread, read_of_end unread, items_of_end again, List.tail_nil]
  · rw [items_of_read clean, List.tail_cons]

theorem read_congr (same : r.skipBlank = s.skipBlank) : r.read = s.read := by
  rcases s.skipBlank_cases with last | ⟨cs, close⟩ | ⟨cs, opening⟩ | ⟨c, cs, atom, close, opening⟩
  · rw [read_of_end last, read_of_end (same ▸ last), same]
  · rw [read_of_close close, read_of_close (same ▸ close), same]
  · rw [read_of_open opening, read_of_open (same ▸ opening), same]
  · rw [read_of_atom atom close opening, read_of_atom (same ▸ atom) close opening, same]

theorem items_congr (same : r.skipBlank = s.skipBlank) : r.items = s.items := by
  have reading : r.read = s.read := read_congr same
  by_cases clean : s.read.result = .error .endOfInput
  · have unread := (read_eq_endOfInput_iff s).1 clean
    rw [items_of_end unread, items_of_end (same ▸ unread)]
  · rw [items_of_read clean, items_of_read (reading ▸ clean), reading]

theorem skipBlank_eq_of_blank (blank : ∀ c ∈ w, Text.isBlank c) (passes : r.Passes w s) :
    r.skipBlank = s.skipBlank := by
  obtain ⟨v, further, kind, stops⟩ := skipWhile_eq_iff.1 (rfl : s.skipBlank = _)
  refine skipWhile_eq_iff.2 ⟨w ++ v, passes.trans further, ?_, stops⟩
  intro c mem
  exact (List.mem_append.1 mem).elim (blank c) (kind c)

theorem items_of_blank (blank : ∀ c ∈ w, Text.isBlank c) (passes : r.Passes w s) :
    r.items = s.items :=
  items_congr (skipBlank_eq_of_blank blank passes)

theorem exists_open_of_unclosed {opened : Nat}
    (fault : r.read.result = .error (.unclosed opened)) : ∃ cs, r.skipBlank.unread = '(' :: cs := by
  rcases r.skipBlank_cases with last | ⟨cs, close⟩ | ⟨cs, opening⟩ | ⟨c, cs, atom, close, opening⟩
  · simp [read_of_end last] at fault
  · simp [read_of_close close] at fault
  · exact ⟨cs, opening⟩
  · simp [read_of_atom atom close opening] at fault

/-- A list that is not closed takes the whole text. -/
theorem after_of_unclosed {opened : Nat} (fault : r.read.result = .error (.unclosed opened)) :
    r.read.after = r.skipAll := by
  obtain ⟨cs, opening⟩ := exists_open_of_unclosed fault
  have scanned := read_list_eq_scan opening
  split at scanned
  · obtain ⟨ts, reading⟩ := scanned
    simp [reading] at fault
  · rw [scanned.1, scanned.2]

theorem items_of_unclosed {opened : Nat} (fault : r.read.result = .error (.unclosed opened)) :
    r.items = [.error (.unclosed opened)] := by
  have more : r.read.result ≠ .error .endOfInput := by simp [fault]
  rw [items_of_read more, fault, after_of_unclosed fault, items_of_end rfl]

theorem length_items_of_unclosed {k opened : Nat}
    (fault : r.items[k]? = some (.error (.unclosed opened))) : k + 1 = r.items.length := by
  induction r using items_induction generalizing k with
  | last r unread =>
    rw [items_of_end unread] at fault
    simp at fault
  | more r more ih =>
    cases k with
    | zero =>
      rw [items_of_read more] at fault
      have here : r.read.result = .error (.unclosed opened) := by simpa using fault
      rw [items_of_unclosed here]
      rfl
    | succ k =>
      rw [items_of_read more, List.getElem?_cons_succ] at fault
      rw [items_of_read more, List.length_cons, ih fault]

theorem items_of_tree {t : Tree} (form : r.read.result = .ok t) :
    r.items = .ok t :: r.read.after.items := by
  have more : r.read.result ≠ .error .endOfInput := by simp [form]
  rw [items_of_read more, form]

theorem items_of_close {cs : List Char} (close : r.skipBlank.unread = ')' :: cs) :
    r.items = .error (.unmatchedClose r.skipBlank.offset) :: r.skipBlank.skipOne.items :=
  items_of_read_eq (read_of_close close) nofun

/-- Induction along the items of a text, by what each of them is. -/
theorem item_induction {motive : Reader → Prop}
    (last : ∀ r, r.skipBlank.unread = [] → motive r)
    (tree : ∀ r t, r.read.result = .ok t → motive r.read.after → motive r)
    (close : ∀ r cs, r.skipBlank.unread = ')' :: cs → motive r.skipBlank.skipOne → motive r)
    (unclosed : ∀ r opened, r.read.result = .error (.unclosed opened) → motive r)
    (r : Reader) : motive r := by
  induction r using items_induction with
  | last r unread => exact last r unread
  | more r more ih =>
    cases outcome : r.read.result with
    | ok t => exact tree r t outcome ih
    | error e =>
      cases e with
      | endOfInput => exact absurd outcome more
      | unclosed opened => exact unclosed r opened outcome
      | unmatchedClose offset =>
        obtain ⟨⟨cs, unread⟩, -⟩ := (r.read_eq_unmatchedClose_iff offset).1 outcome
        rw [read_of_close unread] at ih
        exact close r cs unread ih

end Reader

/-- The trees of items among which there is no fault, or else the first fault. -/
def collect : List (Except ReadError Tree) → Except ReadError (List Tree)
  | [] => .ok []
  | .error e :: _ => .error e
  | .ok t :: items => (collect items).map (t :: ·)

theorem collect_eq_ok_iff {items : List (Except ReadError Tree)} {ts : List Tree} :
    collect items = .ok ts ↔ items = ts.map .ok := by
  induction items generalizing ts with
  | nil => cases ts <;> simp [collect]
  | cons item items ih =>
    cases item with
    | error e => cases ts <;> simp [collect]
    | ok t =>
      rw [collect]
      cases ts with
      | nil => cases collect items <;> simp [Except.map]
      | cons u us =>
        have later := @ih us
        cases collected : collect items <;> simp_all [Except.map]

theorem collect_append (ts : List Tree) (items : List (Except ReadError Tree)) :
    collect (ts.map .ok ++ items) = (collect items).map (ts ++ ·) := by
  induction ts with
  | nil => cases collected : collect items <;> simp [collected, Except.map]
  | cons t ts ih =>
    rw [List.map_cons, List.cons_append, collect, ih]
    cases collect items <;> rfl

/-- The fault that comes of items has nothing but trees before it. -/
theorem collect_eq_error_iff {items : List (Except ReadError Tree)} {e : ReadError} :
    collect items = .error e ↔ ∃ ts later, items = List.map .ok ts ++ .error e :: later := by
  constructor
  · intro failed
    induction items with
    | nil => cases failed
    | cons item items ih =>
      cases item with
      | error f =>
        cases failed
        exact ⟨[], items, rfl⟩
      | ok t =>
        rw [collect] at failed
        cases collected : collect items with
        | ok ts =>
          rw [collected] at failed
          cases failed
        | error f =>
          rw [collected] at failed
          cases failed
          obtain ⟨ts, later, rfl⟩ := ih collected
          exact ⟨t :: ts, later, rfl⟩
  · intro first
    obtain ⟨ts, later, rfl⟩ := first
    rw [collect_append]
    rfl

theorem collect_map_mapError (f : ReadError → ReadError) (items : List (Except ReadError Tree)) :
    collect (items.map (·.mapError f)) = (collect items).mapError f := by
  induction items with
  | nil => rfl
  | cons item items ih =>
    cases item with
    | error e => rfl
    | ok t =>
      change (collect (items.map (·.mapError f))).map (t :: ·) =
        ((collect items).map (t :: ·)).mapError f
      rw [ih]
      cases collect items <;> rfl

/-- Reading on after the first fault makes no difference to what the readings come to. -/
theorem Reader.mapM_untilFault (r : Reader) :
    r.untilFault.mapM (·.result) = collect r.items := by
  induction r using items_induction with
  | last r unread =>
    rw [untilFault_of_none (next_of_end unread), items_of_end unread]
    rfl
  | more r more ih =>
    have asked := next_of_read more
    rw [items_of_read more]
    cases outcome : r.read.result with
    | error e =>
      rw [outcome] at asked
      rw [untilFault_of_error asked]
      rfl
    | ok t =>
      rw [outcome] at asked
      rw [untilFault_of_ok asked, List.mapM_cons, collect, ih]
      cases collect r.read.after.items <;> rfl

theorem Tree.parseAll_eq_collect (source : String) :
    Tree.parseAll source = collect (Reader.ofString source).items :=
  Reader.mapM_untilFault _

/-- All forms of a text are read when its items are trees, and these are then the forms. -/
theorem Tree.parseAll_eq_ok_iff {source : String} {ts : List Tree} :
    Tree.parseAll source = .ok ts ↔ (Reader.ofString source).items = ts.map .ok := by
  rw [Tree.parseAll_eq_collect, collect_eq_ok_iff]

/-- Otherwise it is the first fault among the items that comes of a text. -/
theorem Tree.parseAll_eq_error_iff {source : String} {e : ReadError} :
    Tree.parseAll source = .error e ↔
      ∃ ts later, (Reader.ofString source).items = List.map .ok ts ++ .error e :: later := by
  rw [Tree.parseAll_eq_collect, collect_eq_error_iff]

end Sexp
