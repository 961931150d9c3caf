import Sexp.Proofs.Reading.Passing

/-!
# Scanning for the parentheses

A scan goes over the text once, with the open parentheses on a stack and a flag for being inside
an atom, where a `(` opens nothing. It finds what reading a list comes to without building it:
where the list ends, or which parenthesis is to blame. Main statement: the recursion of the reader
has the outcome that the scan finds.
-/

namespace Sexp

/-- The open parentheses, innermost first, and whether the scan stands inside an atom. -/
structure Scan where
  opened : List Nat
  inAtom : Bool

namespace Scan

/-- Takes in one character, which stands at byte `offset`. -/
def step (s : Scan) (offset : Nat) (c : Char) : Scan :=
  if Text.isBlank c then { s with inAtom := false }
  else if c = ')' then ⟨s.opened.tail, false⟩
  else if c = '(' ∧ s.inAtom = false then ⟨offset :: s.opened, false⟩
  else { s with inAtom := true }

/-- Scans up to the first `)` that leaves nothing open, or else the whole text. What is open then
and the position come out. -/
def run (s : Scan) (offset : Nat) : List Char → List Nat × Reader
  | [] => (s.opened, ⟨[], offset⟩)
  | c :: cs =>
    let next := s.step offset c
    if c = ')' ∧ next.opened = [] then ([], ⟨cs, offset + c.utf8Size⟩)
    else next.run (offset + c.utf8Size) cs

variable {opened : List Nat} {c : Char} {cs : List Char} {offset : Nat} {s : Scan}

theorem step_blank (blank : Text.isBlank c) : s.step offset c = ⟨s.opened, false⟩ := by
  simp [step, blank]

theorem step_close : s.step offset ')' = ⟨s.opened.tail, false⟩ := rfl

theorem step_open : step ⟨opened, false⟩ offset '(' = ⟨offset :: opened, false⟩ := rfl

theorem step_atom (char : isAtomChar c) (inside : c = '(' → s.inAtom) :
    s.step offset c = ⟨s.opened, true⟩ := by
  obtain ⟨nonblank, close⟩ := isAtomChar_iff.1 char
  have opens : ¬(c = '(' ∧ s.inAtom = false) := by
    intro both
    have flag : s.inAtom = true := inside both.1
    rw [both.2] at flag
    contradiction
  simp [step, nonblank, close, opens]

theorem run_cons (going : c ≠ ')') :
    s.run offset (c :: cs) = (s.step offset c).run (offset + c.utf8Size) cs := by
  simp [run, going]

/-- A run of characters that leave the scan as it is makes no difference to it. -/
theorem run_dropWhile {p : Char → Bool}
    (stays : ∀ c, p c → c ≠ ')' ∧ ∀ offset, s.step offset c = s) (offset : Nat) (cs : List Char) :
    s.run (offset + Text.utf8Size (cs.takeWhile p)) (cs.dropWhile p) = s.run offset cs := by
  induction cs generalizing offset with
  | nil => rfl
  | cons c cs ih =>
    by_cases kind : p c
    · obtain ⟨going, same⟩ := stays c kind
      rw [List.takeWhile_cons_of_pos kind, List.dropWhile_cons_of_pos kind, run_cons going, same,
        Text.utf8Size_cons, ← Nat.add_assoc]
      exact ih _
    · rw [List.takeWhile_cons_of_neg kind, List.dropWhile_cons_of_neg kind]
      rfl

theorem run_dropWhile_isBlank (opened : List Nat) (offset : Nat) (cs : List Char) :
    run ⟨opened, false⟩ (offset + Text.utf8Size (cs.takeWhile Text.isBlank))
      (cs.dropWhile Text.isBlank) = run ⟨opened, false⟩ offset cs := by
  apply run_dropWhile
  intro c blank
  have going : c ≠ ')' := by
    intro close
    subst close
    contradiction
  exact ⟨going, fun _ => step_blank blank⟩

theorem run_dropWhile_isAtomChar (opened : List Nat) (offset : Nat) (cs : List Char) :
    run ⟨opened, true⟩ (offset + Text.utf8Size (cs.takeWhile isAtomChar))
      (cs.dropWhile isAtomChar) = run ⟨opened, true⟩ offset cs := by
  apply run_dropWhile
  intro c char
  exact ⟨(isAtomChar_iff.1 char).2, fun _ => step_atom char fun _ => rfl⟩

theorem run_of_stops (stops : Reader.Stops isAtomChar cs) :
    run ⟨opened, true⟩ offset cs = run ⟨opened, false⟩ offset cs := by
  cases cs with
  | nil => rfl
  | cons c cs =>
    have same : step ⟨opened, true⟩ offset c = step ⟨opened, false⟩ offset c := by
      rcases isAtomChar_eq_false_iff.1 (stops c rfl) with blank | rfl
      · rw [step_blank blank, step_blank blank]
      · rfl
    rw [run, run, same]

end Scan

namespace Reader

variable {r s : Reader} {c : Char} {cs : List Char} {opened left : List Nat}

def scan (r : Reader) (s : Scan) : List Nat × Reader :=
  s.run r.offset r.unread

/-- The scan after a `)` that leaves the parentheses given open. -/
def scanAfterClose (r : Reader) (opened : List Nat) : List Nat × Reader :=
  if opened = [] then ([], r) else r.scan ⟨opened, false⟩

theorem scan_skipBlank (r : Reader) (opened : List Nat) :
    r.skipBlank.scan ⟨opened, false⟩ = r.scan ⟨opened, false⟩ :=
  Scan.run_dropWhile_isBlank opened r.offset r.unread

theorem scan_of_end (unread : r.unread = []) (s : Scan) : r.scan s = (s.opened, r) := by
  obtain ⟨unread', offset⟩ := r
  cases unread
  rfl

theorem scan_of_close (unread : r.unread = ')' :: cs) (opening : Nat) :
    r.scan ⟨opening :: opened, false⟩ = r.skipOne.scanAfterClose opened := by
  rw [scan, unread, Scan.run, Scan.step_close, scanAfterClose, skipOne_of_unread unread]
  simp [scan]

theorem scan_of_open (unread : r.unread = '(' :: cs) :
    r.scan ⟨opened, false⟩ = r.skipOne.scan ⟨r.offset :: opened, false⟩ := by
  rw [scan, unread, Scan.run_cons (by decide), Scan.step_open, skipOne_of_unread unread]
  rfl

theorem scan_of_atom (unread : r.unread = c :: cs) (char : isAtomChar c) (opening : c ≠ '(') :
    r.scan ⟨opened, false⟩ = r.skipAtom.scan ⟨opened, false⟩ := by
  have going : c ≠ ')' := (isAtomChar_iff.1 char).2
  have first : r.scan ⟨opened, false⟩ = r.scan ⟨opened, true⟩ := by
    rw [scan, scan, unread, Scan.run_cons going, Scan.run_cons going,
      Scan.step_atom char fun same => absurd same opening, Scan.step_atom char fun _ => rfl]
  obtain ⟨_, _, _, stops⟩ := skipWhile_eq_iff.1 (rfl : r.skipAtom = _)
  rw [first, scan, ← Scan.run_dropWhile_isAtomChar]
  exact Scan.run_of_stops stops

/-- The scan from `r` takes the course of the attempt. Where that succeeds, the scan goes on from
the same position with `left` open; where it fails, the text has come to its end and the
parenthesis to blame is the innermost one open. -/
def Follows (r : Reader) (opened left : List Nat) (a : Attempt α) : Prop :=
  match a.result with
  | .ok _ => r.scan ⟨opened, false⟩ = a.after.scanAfterClose left
  | .error e => ∃ top below, e = .unclosed top ∧
      r.scan ⟨opened, false⟩ = (top :: below, r.skipAll) ∧ a.after = r.skipAll

theorem Follows.before {a : Attempt α} (later : s.Follows opened left a) (f : α → β)
    {outer : List Nat} (same : r.scan ⟨outer, false⟩ = s.scan ⟨opened, false⟩)
    (passes : r.Passes cs s) : r.Follows outer left (a.map f) := by
  obtain ⟨result, t⟩ := a
  cases result with
  | ok x => exact same.trans later
  | error e =>
    obtain ⟨top, below, blame, course, after⟩ := later
    rw [passes.skipAll_eq] at course after
    exact ⟨top, below, blame, same.trans course, after⟩

theorem attempts_follow (r : Reader) :
    (∀ c cs, r.skipBlank.unread = c :: cs → c ≠ ')' → ∀ top below,
      r.Follows (top :: below) (top :: below) r.read) ∧
    ∀ opened below, r.Follows (opened :: below) below (r.elements opened) := by
  apply read_induction
    (fun r a => ∀ c cs, r.skipBlank.unread = c :: cs → c ≠ ')' → ∀ top below,
      r.Follows (top :: below) (top :: below) a)
    (fun opened r a => ∀ below, r.Follows (opened :: below) below a)
  case form_end =>
    intro r unread c cs some
    rw [unread] at some
    contradiction
  case form_close =>
    intro r cs unread c ds some close
    rw [unread] at some
    exact absurd (List.cons.inj some).1.symm close
  case form_open =>
    intro r cs a unread inside _ _ _ _ top below
    refine (inside (top :: below)).before Tree.list ?_ (passes_skipBlank_skipOne unread)
    rw [← scan_skipBlank, scan_of_open unread]
  case form_atom =>
    intro r c cs unread close opening _ _ _ _ top below
    have char := isAtomChar_iff.2 ⟨not_isBlank_of_skipBlank unread, close⟩
    change r.scan _ = r.skipBlank.skipAtom.scan _
    rw [← scan_skipBlank, scan_of_atom unread char opening]
  case inside_end =>
    intro opened r unread below
    have last := r.passes_skipBlank.eq_skipAll unread
    refine ⟨opened, below, rfl, ?_, last⟩
    rw [← scan_skipBlank, scan_of_end unread, last]
  case inside_close =>
    intro opened r cs unread below
    change r.scan _ = _
    rw [← scan_skipBlank, scan_of_close unread]
  case inside_error =>
    intro opened r c cs e s unread close form below
    exact form c cs unread close opened below
  case inside_form =>
    intro opened r c cs tree s a unread close reading form later below
    obtain ⟨ds, passes⟩ := (passes_attempts r).1
    rw [reading] at passes
    exact (later below).before (tree :: ·) (form c cs unread close opened below) passes

theorem unclosed_of_elements {opened : Nat} {e : ReadError}
    (failed : (r.elements opened).result = .error e) : ∃ top, e = .unclosed top := by
  have follows := (attempts_follow r).2 opened []
  rw [Follows, failed] at follows
  obtain ⟨top, _, blame, _⟩ := follows
  exact ⟨top, blame⟩

theorem read_of_open_cases (opening : r.skipBlank.unread = '(' :: cs) :
    (∃ ts, r.read.result = .ok (.list ts)) ∨ ∃ top, r.read.result = .error (.unclosed top) := by
  rw [read_of_open opening]
  cases outcome : (r.skipBlank.skipOne.elements r.skipBlank.offset).result with
  | ok ts =>
    left
    exact ⟨ts, by rw [Attempt.map, outcome]; rfl⟩
  | error e =>
    right
    obtain ⟨top, rfl⟩ := unclosed_of_elements outcome
    exact ⟨top, by rw [Attempt.map, outcome]; rfl⟩

theorem isAtom_ofAtom (text : List Char) : (Tree.ofAtom text).isAtom := by
  unfold Tree.ofAtom
  split <;> rfl

theorem exists_read_of_atom (unread : r.skipBlank.unread = c :: cs) (close : c ≠ ')')
    (opening : c ≠ '(') : ∃ t, t.isAtom ∧ r.read.result = .ok t := by
  rw [read_of_atom unread close opening]
  exact ⟨r.skipBlank.atom, isAtom_ofAtom _, rfl⟩

theorem read_eq_endOfInput_iff (r : Reader) :
    r.read.result = .error .endOfInput ↔ r.skipBlank.unread = [] := by
  rcases r.skipBlank_cases with unread | ⟨cs, unread⟩ | ⟨cs, unread⟩ | ⟨c, cs, unread, close, opening⟩
  · simp [unread, read_of_end unread]
  · simp [unread, read_of_close unread]
  · rcases read_of_open_cases unread with ⟨ts, outcome⟩ | ⟨top, outcome⟩
    · simp [unread, outcome]
    · simp [unread, outcome]
  · obtain ⟨t, -, outcome⟩ := exists_read_of_atom unread close opening
    simp [unread, outcome]

theorem read_eq_unmatchedClose_iff (r : Reader) (offset : Nat) :
    r.read.result = .error (.unmatchedClose offset) ↔
      (∃ cs, r.skipBlank.unread = ')' :: cs) ∧ offset = r.skipBlank.offset := by
  rcases r.skipBlank_cases with unread | ⟨cs, unread⟩ | ⟨cs, unread⟩ | ⟨c, cs, unread, close, opening⟩
  · simp [unread, read_of_end unread]
  · simp [unread, read_of_close unread, eq_comm]
  · rcases read_of_open_cases unread with ⟨ts, outcome⟩ | ⟨top, outcome⟩
    · simp [unread, outcome]
    · simp [unread, outcome]
  · obtain ⟨t, -, outcome⟩ := exists_read_of_atom unread close opening
    simp [unread, outcome, close]

/-- A list ends where the scan closes its parenthesis; where the scan comes to the end of the text
instead, the innermost parenthesis it has left open is to blame. -/
theorem read_list_eq_scan (opening : r.skipBlank.unread = '(' :: cs) :
    match r.skipBlank.scan ⟨[], false⟩ with
    | ([], s) => ∃ ts, r.read = ⟨.ok (.list ts), s⟩
    | (top :: _, s) => r.read = ⟨.error (.unclosed top), s⟩ ∧ s = r.skipAll := by
  have follows := (attempts_follow r.skipBlank.skipOne).2 r.skipBlank.offset []
  have passes := passes_skipBlank_skipOne opening
  rw [scan_of_open opening, read_of_open opening]
  unfold Follows at follows
  match attempt : r.skipBlank.skipOne.elements r.skipBlank.offset with
  | ⟨.ok ts, s⟩ =>
    rw [attempt] at follows
    rw [follows]
    exact ⟨ts, rfl⟩
  | ⟨.error e, s⟩ =>
    rw [attempt] at follows
    obtain ⟨top, below, rfl, course, rfl⟩ := follows
    rw [course]
    exact ⟨rfl, passes.skipAll_eq⟩

/-- Reading has the outcome that the scan finds: at the end of the text and on a stray `)` there is
no form, a list ends where the scan closes it, or else the innermost parenthesis that the scan
leaves open is to blame, and whatever begins otherwise is an atom. Nothing inside a list is taken
for a clean end or a stray `)`. -/
theorem read_eq_scan (r : Reader) :
    (r.read.result = .error .endOfInput ↔ r.skipBlank.unread = []) ∧
    (∀ offset, r.read.result = .error (.unmatchedClose offset) ↔
      (∃ cs, r.skipBlank.unread = ')' :: cs) ∧ offset = r.skipBlank.offset) ∧
    (∀ cs, r.skipBlank.unread = ')' :: cs → r.read.after = ⟨cs, r.skipBlank.offset + 1⟩) ∧
    (∀ cs, r.skipBlank.unread = '(' :: cs →
      match r.skipBlank.scan ⟨[], false⟩ with
      | ([], s) => ∃ ts, r.read = ⟨.ok (.list ts), s⟩
      | (top :: _, s) => r.read = ⟨.error (.unclosed top), s⟩ ∧ s = r.skipAll) ∧
    (∀ c cs, r.skipBlank.unread = c :: cs → c ≠ ')' → c ≠ '(' →
      ∃ t, t.isAtom ∧ r.read.result = .ok t) ∧
    ∀ (s : Reader) opened e, (s.elements opened).result = .error e → ∃ top, e = .unclosed top := by
  refine ⟨r.read_eq_endOfInput_iff, r.read_eq_unmatchedClose_iff, ?_, ?_, ?_, ?_⟩
  · intro cs close
    rw [read_of_close close, skipOne_of_unread close]
    rfl
  · exact fun cs opening => read_list_eq_scan opening
  · exact fun c cs unread close opening => exists_read_of_atom unread close opening
  · exact fun s opened e failed => unclosed_of_elements failed

end Reader

end Sexp
