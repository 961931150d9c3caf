import Sexp.Text.Characters

/-!
# Quoted names

A quoted name stands between double quotes and shows every character that could not be seen or
would end the quotation: a few by a letter after a backslash, the others by their code point in
lowercase hexadecimal. A character that extends a grapheme cannot be seen on its own, unless it is
a letter. All that is shown can be seen (`isHidden_of_mem_quote`), and names are told apart by it
(`quote_inj`).
-/

namespace Sexp.Text.Quoted

/-- The characters that are shown by a letter, each with its letter. -/
def letters : List (Char × Char) :=
  [('\x00', '0'), ('\t', 't'), ('\n', 'n'), ('\r', 'r'), ('"', '"'), ('\\', '\\')]

def codePoint (c : Char) : List Char :=
  ['\\', 'u', '\x7b'] ++ Nat.toDigits 16 c.toNat ++ ['\x7d']

/-- The two letters that extend a grapheme: the halfwidth sound marks of kana, which take a place
of their own. -/
def isSoundMarkLetter (c : Char) : Bool :=
  c = '\uff9e' || c = '\uff9f'

def isHidden (c : Char) : Bool :=
  isUnprintable c || isDefaultIgnorable c || (isGraphemeExtend c && !isSoundMarkLetter c)

def encode (c : Char) : List Char :=
  match letters.lookup c with
  | some l => ['\\', l]
  | none => if isHidden c then codePoint c else [c]

def quote (name : String) : String :=
  .ofList ('"' :: (name.toList.flatMap encode ++ ['"']))

/-- The three ways to show a character. -/
inductive Shown (c : Char) : List Char → Prop where
  | letter {l : Char} : (c, l) ∈ letters → Shown c ['\\', l]
  | code : Shown c (codePoint c)
  | plain : c ≠ '\\' → isHidden c = false → Shown c [c]

variable {c d : Char} {cs ds f g : List Char} {m n : Nat} {name other : String}

theorem toDigits_of_not_lt (large : ¬n < 16) :
    Nat.toDigits 16 n = Nat.toDigits 16 (n / 16) ++ [Nat.digitChar (n % 16)] :=
  Nat.toDigits_of_base_le (by decide) (Nat.le_of_not_lt large)

theorem exists_of_mem_toDigits (mem : c ∈ Nat.toDigits 16 n) : ∃ d < 16, c = Nat.digitChar d := by
  induction n using Nat.strongRecOn with
  | ind n ih =>
    by_cases small : n < 16
    · rw [Nat.toDigits_of_lt_base small, List.mem_singleton] at mem
      exact ⟨n, small, mem⟩
    · rw [toDigits_of_not_lt small, List.mem_append, List.mem_singleton] at mem
      rcases mem with mem | last
      · exact ih (n / 16) (by omega) mem
      · exact ⟨n % 16, by omega, last⟩

theorem toDigits_inj (same : Nat.toDigits 16 m = Nat.toDigits 16 n) : m = n := by
  have digits : ∀ a < 16, ∀ b < 16, Nat.digitChar a = Nat.digitChar b → a = b := by decide
  induction m using Nat.strongRecOn generalizing n with
  | ind m ih =>
    by_cases small : m < 16 <;> by_cases small' : n < 16
    · rw [Nat.toDigits_of_lt_base small, Nat.toDigits_of_lt_base small'] at same
      exact digits m small n small' (List.singleton_inj.1 same)
    · rw [Nat.toDigits_of_lt_base small, toDigits_of_not_lt small'] at same
      simpa using congrArg List.length same
    · rw [toDigits_of_not_lt small, Nat.toDigits_of_lt_base small'] at same
      simpa using congrArg List.length same
    · rw [toDigits_of_not_lt small, toDigits_of_not_lt small'] at same
      obtain ⟨high, low⟩ := List.append_inj' same rfl
      have high := ih (m / 16) (by omega) high
      have low := digits (m % 16) (by omega) (n % 16) (by omega) (List.singleton_inj.1 low)
      omega

theorem shown_encode (c : Char) : Shown c (encode c) := by
  unfold encode
  split
  next l named =>
    obtain ⟨before, after, table, -⟩ := List.lookup_eq_some_iff.1 named
    exact .letter (by simp [table])
  next none =>
    have other : c ≠ '\\' := by
      rintro rfl
      contradiction
    by_cases hidden : isHidden c
    · rw [if_pos hidden]
      exact .code
    · rw [if_neg hidden]
      exact .plain other (by simpa using hidden)

theorem not_mem_toDigits_close (n : Nat) : '\x7d' ∉ Nat.toDigits 16 n := by
  intro mem
  obtain ⟨d, digit, same⟩ := exists_of_mem_toDigits mem
  have other : ∀ d < 16, '\x7d' ≠ Nat.digitChar d := by decide
  exact other d digit same

/-- A code point ends with its bracket, so what comes after it does not change it. -/
theorem codePoint_append_inj (same : codePoint c ++ cs = codePoint d ++ ds) : c = d ∧ cs = ds := by
  have digits (c : Char) (cs : List Char) :
      (Nat.toDigits 16 c.toNat ++ '\x7d' :: cs).takeWhile (· != '\x7d') =
        Nat.toDigits 16 c.toNat := by
    rw [List.takeWhile_append_of_pos, List.takeWhile_cons_of_neg (by simp), List.append_nil]
    intro digit mem
    exact bne_iff_ne.2 (ne_of_mem_of_not_mem mem (not_mem_toDigits_close _))
  have inside : Nat.toDigits 16 c.toNat ++ '\x7d' :: cs =
      Nat.toDigits 16 d.toNat ++ '\x7d' :: ds := by
    simpa [codePoint] using same
  have number := congrArg (List.takeWhile (· != '\x7d')) inside
  rw [digits, digits] at number
  rw [number] at inside
  exact ⟨Char.toNat_inj.1 (toDigits_inj number), (List.cons.inj (List.append_cancel_left inside)).2⟩

theorem letters_inj {l : Char} (first : (c, l) ∈ letters) (second : (d, l) ∈ letters) : c = d := by
  have table : ∀ p ∈ letters, ∀ q ∈ letters, p.2 = q.2 → p.1 = q.1 := by decide
  exact table (c, l) first (d, l) second rfl

theorem not_mem_letters_code : (c, 'u') ∉ letters := by
  have table : ∀ p ∈ letters, p.2 ≠ 'u' := by decide
  exact fun named => table (c, 'u') named rfl

/-- No character is shown by the beginning of what shows another. -/
theorem Shown.append_inj (first : Shown c f) (second : Shown d g) (same : f ++ cs = g ++ ds) :
    c = d ∧ cs = ds := by
  cases first with
  | @letter l named =>
    cases second with
    | @letter k named' =>
      obtain ⟨rfl, rfl⟩ : l = k ∧ cs = ds := by simpa using same
      exact ⟨letters_inj named named', rfl⟩
    | code =>
      obtain ⟨rfl, -⟩ : l = 'u' ∧ cs = '\x7b' :: (Nat.toDigits 16 d.toNat ++ '\x7d' :: ds) := by
        simpa [codePoint] using same
      exact absurd named not_mem_letters_code
    | plain other => exact absurd (by simpa using congrArg List.head? same.symm) other
  | code =>
    cases second with
    | @letter k named =>
      obtain ⟨rfl, -⟩ : k = 'u' ∧ ds = '\x7b' :: (Nat.toDigits 16 c.toNat ++ '\x7d' :: cs) := by
        simpa [codePoint] using same.symm
      exact absurd named not_mem_letters_code
    | code => exact codePoint_append_inj same
    | plain other => exact absurd (by simpa [codePoint] using congrArg List.head? same.symm) other
  | plain other =>
    cases second with
    | letter => exact absurd (by simpa using congrArg List.head? same) other
    | code => exact absurd (by simpa [codePoint] using congrArg List.head? same) other
    | plain => simpa using same

theorem encode_ne_nil (c : Char) : encode c ≠ [] := by
  intro none
  have shown := shown_encode c
  rw [none] at shown
  cases shown

theorem flatMap_encode_inj (same : cs.flatMap encode = ds.flatMap encode) : cs = ds := by
  induction cs generalizing ds with
  | nil =>
    cases ds with
    | nil => rfl
    | cons d ds => simp [encode_ne_nil d] at same
  | cons c cs ih =>
    cases ds with
    | nil => simp [encode_ne_nil c] at same
    | cons d ds =>
      obtain ⟨rfl, later⟩ := (shown_encode c).append_inj (shown_encode d) same
      rw [ih later]

theorem toList_quote (name : String) :
    (quote name).toList = '"' :: (name.toList.flatMap encode ++ ['"']) :=
  String.toList_ofList

theorem quote_inj : quote name = quote other ↔ name = other := by
  refine ⟨fun same => ?_, congrArg quote⟩
  have inside := congrArg String.toList same
  rw [toList_quote, toList_quote, List.cons_inj_right] at inside
  exact String.toList_inj.1 (flatMap_encode_inj (List.append_cancel_right inside))

example : quote "\t" = "\"\\t\"" ∧ quote "\\t" = "\"\\\\t\"" := by decide +kernel

theorem isHidden_of_ascii (low : 0x20 ≤ c.toNat) (high : c.toNat ≤ 0x7E) : isHidden c = false := by
  have unprintable : isUnprintable c = false := inRanges_eq_false (by decide +kernel) low high
  have ignorable : isDefaultIgnorable c = false := inRanges_eq_false (by decide +kernel) low high
  have extend : isGraphemeExtend c = false := inRanges_eq_false (by decide +kernel) low high
  simp [isHidden, unprintable, ignorable, extend]

theorem Shown.isHidden_of_mem (shown : Shown c f) (mem : d ∈ f) : isHidden d = false := by
  cases shown with
  | letter named =>
    have letter : ∀ p ∈ letters, 0x20 ≤ p.2.toNat ∧ p.2.toNat ≤ 0x7E := by decide
    rcases List.mem_cons.1 mem with rfl | last
    · exact isHidden_of_ascii (by decide) (by decide)
    · obtain rfl := List.mem_singleton.1 last
      exact isHidden_of_ascii (letter _ named).1 (letter _ named).2
  | code =>
    have digit : ∀ n < 16, 0x20 ≤ (Nat.digitChar n).toNat ∧ (Nat.digitChar n).toNat ≤ 0x7E := by
      decide
    simp only [codePoint, List.mem_append, List.mem_cons, List.not_mem_nil, or_false] at mem
    rcases mem with ((rfl | rfl | rfl) | inside) | rfl
    case inl.inr =>
      obtain ⟨n, small, rfl⟩ := exists_of_mem_toDigits inside
      exact isHidden_of_ascii (digit n small).1 (digit n small).2
    all_goals exact isHidden_of_ascii (by decide) (by decide)
  | plain _ visible =>
    obtain rfl := List.mem_singleton.1 mem
    exact visible

/-- Whatever the name holds, each character of its quotation can be seen. -/
theorem isHidden_of_mem_quote (mem : c ∈ (quote name).toList) : isHidden c = false := by
  have mark : isHidden '"' = false := isHidden_of_ascii (by decide) (by decide)
  rw [toList_quote, List.mem_cons, List.mem_append, List.mem_singleton] at mem
  rcases mem with rfl | mem | rfl
  · exact mark
  · obtain ⟨d, -, inside⟩ := List.mem_flatMap.1 mem
    exact (shown_encode d).isHidden_of_mem inside
  · exact mark

/-- Of the blanks only the plain space is shown as it is, so that a quotation stands on one line. -/
theorem eq_space_of_mem_quote (mem : c ∈ (quote name).toList) (blank : isBlank c) : c = ' ' := by
  refine Decidable.byContradiction fun other => ?_
  have visible := isHidden_of_mem_quote mem
  simp [isHidden, isUnprintable_of_isBlank blank other] at visible

example : quote "e\u0301\u2028" = "\"e\\u\x7b301\x7d\\u\x7b2028\x7d\"" := by decide +kernel

/-- Characters that neither hide nor have a letter are shown as they are. -/
theorem quote_of_visible
    (visible : ∀ c ∈ name.toList, isHidden c = false ∧ letters.lookup c = none) :
    quote name = "\"" ++ name ++ "\"" := by
  have shown : ∀ c ∈ name.toList, encode c = [c] := by
    intro c mem
    obtain ⟨visible, none⟩ := visible c mem
    simp [encode, none, visible]
  have inside : name.toList.flatMap encode = name.toList := by
    rw [List.flatMap_def, List.map_congr_left shown, ← List.flatMap_def, List.flatMap_singleton']
  apply String.toList_inj.1
  rw [toList_quote, inside]
  simp

example : quote "a 'b' \uff9e" = "\"a 'b' \uff9e\"" := by decide +kernel

end Sexp.Text.Quoted
