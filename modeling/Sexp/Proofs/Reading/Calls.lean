import Sexp.Proofs.Reading.Progress
import Sexp.Trace

/-!
# One call after another

A reader may be asked by `read` or by `next`, in any order. Each call finds the reader with one item
less to give (`items_after_read`), so that the calls go through the items of the text whichever way
they ask; behind the last item each of them meets the end of the text, and stays there.
-/

namespace Sexp

namespace Reader

inductive Call where
  | read
  | next
deriving DecidableEq

structure Answer where
  said : Option (Except ReadError Tree)
  after : Reader

namespace Call

/-- `read` reports the clean end like a fault, where `next` says nothing. -/
def answer : Call → Reader → Answer
  | .read, r => ⟨some r.read.result, r.read.after⟩
  | .next, r => ⟨r.next.1, r.next.2⟩

def atEnd : Call → Option (Except ReadError Tree)
  | .read => some (.error .endOfInput)
  | .next => none

end Call

def answers : List Call → Reader → List Answer
  | [], _ => []
  | call :: calls, r =>
    let a := call.answer r
    a :: answers calls a.after

def Answer.reading? (a : Answer) : Option Reading :=
  a.said.map fun result => ⟨result, a.after⟩

/-- The tree that an answer gives, and the offset behind it. -/
def Answer.form? (a : Answer) : Option (Tree × Nat) :=
  match a.said with
  | some (.ok tree) => some (tree, a.after.offset)
  | some (.error _) | none => none

variable {r s : Reader} {k : Nat} {call : Call} {calls : List Call} {source : String}

theorem Call.answer_eq (call : Call) (r : Reader) :
    call.answer r = ⟨r.items.head?.or call.atEnd, r.read.after⟩ := by
  by_cases clean : r.read.result = .error .endOfInput
  · have unread := (read_eq_endOfInput_iff r).1 clean
    rw [items_of_end unread, List.head?_nil, Option.none_or]
    cases call with
    | read => rw [answer, atEnd, clean]
    | next => rw [answer, atEnd, next_of_end unread, read_of_end unread]
  · rw [items_of_read clean, List.head?_cons, Option.some_or]
    cases call with
    | read => rfl
    | next => rw [answer, next_of_read clean]

/-- Whoever calls next finds the reader with the items from that number on still to give. -/
theorem exists_getElem?_answers (called : calls[k]? = some call) (r : Reader) :
    ∃ s cs, (answers calls r)[k]? = some (call.answer s) ∧ s.items = r.items.drop k ∧
      r.Passes cs s := by
  induction calls generalizing r k with
  | nil => simp at called
  | cons first calls ih =>
    cases k with
    | zero =>
      obtain rfl : first = call := by simpa using called
      exact ⟨r, [], rfl, rfl, .refl r⟩
    | succ k =>
      rw [List.getElem?_cons_succ] at called
      -- Whichever way the first call asks, it leaves the reader behind one reading.
      obtain ⟨s, cs, found, items, later⟩ := ih called r.read.after
      obtain ⟨ds, before⟩ := (passes_attempts r).1
      refine ⟨s, ds ++ cs, ?_, ?_, before.trans later⟩
      · rw [answers, List.getElem?_cons_succ, Call.answer_eq]
        exact found
      · rw [items, items_after_read, List.drop_tail]

theorem Call.form?_answer (call : Call) (r : Reader) :
    (call.answer r).form? = r.read.result.toOption.map (·, r.read.after.offset) := by
  rw [answer_eq, Answer.form?]
  by_cases clean : r.read.result = .error .endOfInput
  · rw [items_of_end ((read_eq_endOfInput_iff r).1 clean), clean]
    cases call <;> rfl
  · rw [items_of_read clean]
    cases r.read.result <;> rfl

theorem map_fst_forms (calls : List Call) (r : Reader) :
    ((answers calls r).filterMap Answer.form?).map Prod.fst =
      (r.items.take calls.length).filterMap Except.toOption := by
  induction calls generalizing r with
  | nil => rfl
  | cons call calls ih =>
    have later := ih r.read.after
    rw [items_after_read] at later
    rw [answers, List.filterMap_cons, call.form?_answer, Call.answer_eq]
    by_cases clean : r.read.result = .error .endOfInput
    · -- At the end there is no form to give, for this call nor for the later ones.
      have items : r.items = [] := items_of_end ((read_eq_endOfInput_iff r).1 clean)
      rw [items, List.tail_nil, List.take_nil] at later
      rw [items, List.take_nil, clean]
      exact later
    · have items : r.items = r.read.result :: r.items.tail := by
        rw [items_of_read clean, List.tail_cons]
      rw [items, List.length_cons, List.take_succ_cons, List.filterMap_cons]
      cases r.read.result with
      | error e => exact later
      | ok t => exact congrArg (t :: ·) later

theorem lt_of_mem_forms {form : Tree × Nat}
    (mem : form ∈ (answers calls r).filterMap Answer.form?) : r.offset < form.2 := by
  induction calls generalizing r with
  | nil => contradiction
  | cons call calls ih =>
    obtain ⟨cs, passes⟩ := (passes_attempts r).1
    rw [answers, List.filterMap_cons, call.form?_answer, Call.answer_eq] at mem
    cases outcome : r.read.result with
    | error e =>
      rw [outcome] at mem
      exact Nat.lt_of_le_of_lt passes.offset_le (ih mem)
    | ok t =>
      have further : r.offset < r.read.after.offset :=
        passes.offset_lt (length_lt_of_read (by rw [outcome]; nofun))
      rw [outcome] at mem
      rcases List.mem_cons.1 mem with rfl | mem
      · exact further
      · exact Nat.lt_trans further (ih mem)

theorem pairwise_forms (calls : List Call) (r : Reader) :
    (((answers calls r).filterMap Answer.form?).map Prod.snd).Pairwise (· < ·) := by
  rw [List.pairwise_map]
  induction calls generalizing r with
  | nil => exact .nil
  | cons call calls ih =>
    rw [answers, List.filterMap_cons, call.form?_answer, Call.answer_eq]
    cases r.read.result with
    | error e => exact ih r.read.after
    | ok t => exact .cons (fun form mem => lt_of_mem_forms mem) (ih r.read.after)

theorem trace_answers (given : List Answer) :
    Reader.trace (given.filterMap Answer.reading?) =
      (given.filterMap Answer.form?).map fun form => .event (.readForm form.1 form.2) := by
  rw [Reader.trace, List.filterMap_filterMap, List.map_filterMap, List.map_filterMap]
  congr 1
  funext a
  obtain ⟨said, after⟩ := a
  rcases said with - | (e | t) <;> rfl

/-- However a reader is asked, it answers with the items of the text, one for each call, and with
the end of the text from then on. A list that is not closed is the last item, and reading all forms
of the text comes to the trees, or to the first fault, among the items. The records of the calls
are those of the trees, each further on in the text than the one before. -/
theorem answers_follow_items (source : String) (calls : List Call) :
    let items := (ofString source).items
    let given := answers calls (ofString source)
    (∀ k call, calls[k]? = some call → ∃ a, given[k]? = some a ∧
      (∀ item, items[k]? = some item → a.said = some item) ∧
      (items.length ≤ k → a.said = call.atEnd ∧ a.after.offset = source.utf8ByteSize)) ∧
    (∀ k opened, items[k]? = some (.error (.unclosed opened)) → k + 1 = items.length) ∧
    (∀ ts, Tree.parseAll source = .ok ts ↔ items = ts.map .ok) ∧
    (∀ e, Tree.parseAll source = .error e ↔
      ∃ ts later, items = List.map .ok ts ++ .error e :: later) ∧
    ∃ forms : List (Tree × Nat),
      Reader.trace (given.filterMap Answer.reading?) =
        forms.map (fun form => .event (.readForm form.1 form.2)) ∧
      forms.map Prod.fst = (items.take calls.length).filterMap Except.toOption ∧
      (forms.map Prod.snd).Pairwise (· < ·) := by
  intro items given
  refine ⟨?_, fun k opened => length_items_of_unclosed, fun ts => Tree.parseAll_eq_ok_iff,
    fun e => Tree.parseAll_eq_error_iff, _, trace_answers given, map_fst_forms calls _,
    pairwise_forms calls _⟩
  intro k call called
  obtain ⟨s, cs, found, left, passes⟩ := exists_getElem?_answers called (ofString source)
  refine ⟨_, found, fun item here => ?_, fun past => ?_⟩
  · rw [Call.answer_eq, left, List.head?_drop, here, Option.some_or]
  · have none : s.items = [] := left.trans (List.drop_eq_nil_of_le past)
    have clean : s.read.result = .error .endOfInput := by
      by_contra more
      rw [items_of_read more] at none
      contradiction
    rw [Call.answer_eq, none]
    exact ⟨rfl, passes.offset_of_endOfInput clean⟩

end Reader

end Sexp
