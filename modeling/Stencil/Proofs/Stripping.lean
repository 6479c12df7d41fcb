import Stencil.Proofs.Lexemes

/-! Blanks at the ends of an expression. A blank is no part of any lexeme unless quotes stand around it, so
that an expression and what is left of it without the blanks at its ends are read alike. -/
namespace Stencil.Expr

open Text

/- The members of a set that is kept as boundaries. -/
def codes : List Nat → List Nat
  | first :: stop :: rest => List.range' first (stop - first) ++ codes rest
  | _ => []

theorem withinCodes {bounds : List Nat} {n : Nat} (even : bounds.length % 2 = 0)
    (inside : within bounds n = true) : n ∈ codes bounds := by
  fun_induction codes bounds with
  | case1 first stop rest ih =>
    simp only [List.length_cons] at even
    simp only [List.mem_append, List.mem_range'_1]
    by_cases before : n < stop
    · simp only [within, before] at inside
      exact .inl (by grind)
    · simp only [within, before] at inside
      exact .inr (ih (by omega) (by grind))
  | case2 bounds short =>
    rcases bounds with _ | ⟨first, _ | ⟨stop, rest⟩⟩
    · simp [within] at inside
    · simp at even
    · exact absurd rfl (short first stop rest)

def signs : List Char := ['_', '\'', '"', '.', '$', '\\', '=', '!', '>', '<', '&', '|', '-']

/- Blanks are no part of any lexeme, save between quotes. -/
structure Inert (c : Char) : Prop where
  word : isWord c = false
  decimal : isDecimal c = false
  other : ∀ d ∈ signs, c ≠ d

theorem blankInert {c : Char} (blank : isBlank c = true) : Inert c := by
  have apart : ∀ n ∈ codes blankBounds, within alphanumericBounds n = false ∧
      within decimalBounds n = false ∧ n ∉ signs.map Char.toNat := by decide +kernel
  obtain ⟨letter, decimal, sign⟩ := apart c.toNat (withinCodes rfl blank)
  have other : ∀ d ∈ signs, c ≠ d := by
    rintro d member rfl
    exact sign (List.mem_map_of_mem member)
  exact ⟨by simp [isWord, isAlphanumeric, letter, other '_' (by simp [signs])], decimal, other⟩

theorem closingFits {quote : Char} {s : List Char} {n : Nat} (closed : closingQuote? quote s = some n) :
    n < s.length := by
  fun_induction closingQuote? quote s generalizing n with
  | case1 => simp at closed
  | case2 c rest ih =>
    obtain ⟨m, inner, rfl⟩ := Option.map_eq_some_iff.mp closed
    have := ih inner
    simp
    omega
  | case3 c rest =>
    cases closed
    simp
  | case4 c rest _ _ ih =>
    obtain ⟨m, inner, rfl⟩ := Option.map_eq_some_iff.mp closed
    have := ih inner
    simp
    omega

theorem closingCons {quote c : Char} (plain : c ≠ '\\') (s : List Char) :
    closingQuote? quote (c :: s) = if c = quote then some 0 else (closingQuote? quote s).map (· + 1) := by
  rw [closingQuote?]
  rintro d rest rfl
  exact absurd rfl plain

theorem closingAppend {quote : Char} {s : List Char} {n : Nat} (noEscape : quote ≠ '\\')
    (closed : closingQuote? quote s = some n) (t : List Char) : closingQuote? quote (s ++ t) = some n := by
  fun_induction closingQuote? quote s generalizing n with
  | case1 => simp at closed
  | case2 c rest ih =>
    obtain ⟨m, inner, rfl⟩ := Option.map_eq_some_iff.mp closed
    simp [closingQuote?, ih inner]
  | case3 rest plain =>
    cases closed
    rw [List.cons_append, closingCons noEscape]
    simp
  | case4 c rest plain other ih =>
    obtain ⟨m, inner, rfl⟩ := Option.map_eq_some_iff.mp closed
    cases rest with
    | nil => simp [closingQuote?] at inner
    | cons d rest =>
      rw [List.cons_append, closingCons (fun same => plain d rest same rfl), ih inner]
      simp [other]

theorem closingTrail {quote c : Char} (noEscape : quote ≠ '\\') (other : c ≠ quote) (s : List Char) :
    closingQuote? quote (s ++ [c]) = closingQuote? quote s := by
  fun_induction closingQuote? quote s with
  | case1 => simp [closingQuote?, other]
  | case2 d rest ih => simp [closingQuote?, ih]
  | case3 rest plain => simp [closingCons noEscape]
  | case4 d rest plain differs ih =>
    by_cases escape : d = '\\'
    · subst escape
      cases rest with
      | nil => simp [closingQuote?]
      | cons e rest => exact absurd rfl (plain e rest rfl)
    · simp [closingCons escape, differs, ih]

theorem takeWhileTrail {p : Char → Bool} {c : Char} (ends : p c = false) (s t : List Char) :
    (s ++ c :: t).takeWhile p = s.takeWhile p := by
  induction s with
  | nil => simp [ends]
  | cons d s ih => simp [List.takeWhile_cons, ih]

/- What stands behind a number without its sign. -/
def afterDigits? (s : List Char) : Option (List Char) :=
  let whole := s.takeWhile isDecimal
  let rest := s.drop whole.length
  let part := match rest with
    | '.' :: tail => tail.takeWhile isDecimal
    | _ => []
  let rest := if part.isEmpty then rest else rest.drop (part.length + 1)
  if whole.isEmpty || rest.head?.any (fun c => isWord c || c = '.') then none else some rest

theorem numberSigned (s : List Char) :
    numberLength? ('-' :: s) = (afterDigits? s).map (fun rest => s.length + 1 - rest.length) := by
  simp only [numberLength?, afterDigits?, apply_ite (Option.map _), Option.map_none, Option.map_some]
  rfl

theorem numberUnsigned {s : List Char} (unsigned : s.head? ≠ some '-') :
    numberLength? s = (afterDigits? s).map (fun rest => s.length - rest.length) := by
  simp only [numberLength?, afterDigits?, apply_ite (Option.map _), Option.map_none, Option.map_some]
  split
  · simp at unsigned
  · rfl

theorem digitsTrail {c : Char} (inert : Inert c) (s t : List Char) :
    afterDigits? (s ++ c :: t) = (afterDigits? s).map (· ++ c :: t) := by
  have noDot : c ≠ '.' := inert.other '.' (by simp [signs])
  have finish (w q : List Char) :
      (if w.isEmpty || (q ++ c :: t).head?.any (fun c => isWord c || c = '.') then none else some (q ++ c :: t)) =
        (if w.isEmpty || q.head?.any (fun c => isWord c || c = '.') then none else some q).map
          (· ++ c :: t) := by
    have same : (q ++ c :: t).head?.any (fun c => isWord c || c = '.') =
        q.head?.any (fun c => isWord c || c = '.') := by
      cases q <;> simp [noDot, inert.word]
    rw [same]
    split <;> rfl
  simp only [afterDigits?, takeWhileTrail inert.decimal]
  rw [List.drop_append_of_le_length (List.takeWhile_prefix _).length_le]
  generalize s.drop _ = r
  rw [← finish]
  cases r with
  | nil => simp [noDot]
  | cons d r =>
    by_cases dot : d = '.'
    · subst dot
      have fits : (r.takeWhile isDecimal).length ≤ r.length := (List.takeWhile_prefix _).length_le
      simp only [List.cons_append, takeWhileTrail inert.decimal, List.drop_succ_cons,
        List.drop_append_of_le_length fits]
      split <;> rfl
    · simp [dot]

theorem numberTrail {c : Char} (inert : Inert c) (s t : List Char) :
    numberLength? (s ++ c :: t) = numberLength? s := by
  have noSign : c ≠ '-' := inert.other '-' (by simp [signs])
  by_cases signed : s.head? = some '-'
  · obtain ⟨u, rfl⟩ := List.head?_eq_some_iff.mp signed
    rw [List.cons_append, numberSigned, numberSigned, digitsTrail inert, Option.map_map]
    congr 1
    funext rest
    simp
    omega
  · have signed' : (s ++ c :: t).head? ≠ some '-' := by
      cases s with
      | nil => simpa using noSign
      | cons d s => simpa using signed
    rw [numberUnsigned signed, numberUnsigned signed', digitsTrail inert, Option.map_map]
    congr 1
    funext rest
    simp
    omega

theorem numberFits {s : List Char} {n : Nat} (digits : numberLength? s = some n) : n ≤ s.length := by
  by_cases signed : s.head? = some '-'
  · obtain ⟨u, rfl⟩ := List.head?_eq_some_iff.mp signed
    rw [numberSigned, Option.map_eq_some_iff] at digits
    obtain ⟨rest, -, rfl⟩ := digits
    simp
  · rw [numberUnsigned signed, Option.map_eq_some_iff] at digits
    obtain ⟨rest, -, rfl⟩ := digits
    omega

theorem prefixTrail {c : Char} {needle : List Char} (foreign : c ∉ needle) (s t : List Char) :
    needle.isPrefixOf (s ++ c :: t) = needle.isPrefixOf s := by
  induction needle generalizing s with
  | nil => simp
  | cons d needle ih =>
    simp only [List.mem_cons, not_or] at foreign
    cases s with
    | nil => simp [List.isPrefixOf, Ne.symm foreign.1]
    | cons e s => simp [List.isPrefixOf, ih foreign.2]

theorem operatorTrail {c : Char} (inert : Inert c) (s t : List Char) : operator? (s ++ c :: t) = operator? s := by
  have spelled : ∀ o ∈ Operator.all, o.spelling.toList.all (· ∈ signs) = true := by decide
  refine List.find?_congr fun o known => prefixTrail (fun member => ?_) s t
  have sign : c ∈ signs := by simpa using List.all_eq_true.mp (spelled o known) c member
  exact inert.other c sign rfl

theorem nameTrail {c : Char} (inert : Inert c) (s t : List Char) : nameLength (s ++ c :: t) = nameLength s := by
  have ends : isNameRest c = false := by simp [isNameRest, inert.word, inert.other '$' (by simp [signs])]
  have noDot : c ≠ '.' := inert.other '.' (by simp [signs])
  induction s with
  | nil => simp [nameLength, ends, noDot]
  | cons d s ih => cases s <;> simp_all [nameLength]

theorem nameFits (s : List Char) : nameLength s ≤ s.length := by
  induction s with
  | nil => simp [nameLength]
  | cons c s ih =>
    simp only [nameLength, List.length_cons]
    split
    · omega
    · split <;> omega

theorem quoteSign {c : Char} (quote : isQuote c = true) : c ∈ signs ∧ c ≠ '\\' := by
  simp only [isQuote, Bool.or_eq_true, decide_eq_true_eq] at quote
  rcases quote with rfl | rfl <;> decide

theorem lexemeFits {c : Char} {s : List Char} {l : Lexeme} {n : Nat} (found : lexeme? c s = some (l, n)) :
    n ≤ s.length := by
  cases lexemeBegins found with
  | text quote closed => exact closingFits closed
  | number digits =>
    have := numberFits digits
    simp at this
    omega
  | @operator o first =>
    have starts : o.spelling.toList.isPrefixOf (c :: s) = true := by simpa using List.find?_some first
    have fits := (List.isPrefixOf_iff_prefix.mp starts).length_le
    rw [String.length_toList, List.length_cons] at fits
    omega
  | mark => omega
  | keyword | name => exact nameFits s

theorem noNumber {c : Char} (decimal : isDecimal c = false) (sign : c ≠ '-') (s : List Char) :
    numberLength? (c :: s) = none := by
  have unsigned : (c :: s).head? ≠ some '-' := by simpa using sign
  rw [numberUnsigned unsigned]
  simp [afterDigits?, decimal]

theorem noOperator {c : Char} (sign : c ∉ ['=', '!', '>', '<', '&', '|']) (s : List Char) :
    operator? (c :: s) = none := by
  have firsts : Operator.all.all (fun o => o.spelling.toList.head?.any
      (fun d => ['=', '!', '>', '<', '&', '|'].contains d)) = true := by decide
  rw [operator?, List.find?_eq_none]
  intro o known stands
  have first := List.all_eq_true.mp firsts o known
  cases spelled : o.spelling.toList with
  | nil => simp [spelled] at first
  | cons d rest =>
    simp only [spelled, List.head?_cons, Option.any_some, List.contains_iff_mem] at first
    rw [spelled, List.isPrefixOf, Bool.and_eq_true, beq_iff_eq] at stands
    exact sign (stands.1 ▸ first)

/- A quote that is not closed begins nothing. -/
theorem quoteAlone {c : Char} {s : List Char} (quote : isQuote c = true) (lone : closingQuote? c s = none) :
    lexeme? c s = none := by
  have nothing : isDecimal c = false ∧ c ∉ ['=', '!', '>', '<', '&', '|', '-', '(', ')', ','] ∧
      isNameStart c = false := by
    simp only [isQuote, Bool.or_eq_true, decide_eq_true_eq] at quote
    rcases quote with rfl | rfl <;> decide +kernel
  obtain ⟨decimal, mark, start⟩ := nothing
  simp only [List.mem_cons, List.not_mem_nil, or_false, not_or] at mark
  simp [lexeme?, lone, noNumber decimal, noOperator, start, mark]

/- What is no text ends where something stands that is no part of a lexeme. -/
theorem lexemeUnquoted {b c : Char} (inert : Inert b) (plain : isQuote c = false) (s t : List Char) :
    lexeme? c (s ++ b :: t) = lexeme? c s := by
  have named : (s ++ b :: t).take (nameLength s) = s.take (nameLength s) :=
    List.take_append_of_le_length (nameFits s)
  simp only [lexeme?, plain, Bool.false_eq_true, if_false, ← List.cons_append, numberTrail inert,
    operatorTrail inert, nameTrail inert, named]
  split
  · rename_i m digits
    rw [List.take_append_of_le_length (numberFits digits)]
  · rfl

/- What is found at a place is found there whatever follows, if that is no part of a lexeme. -/
theorem lexemeBehind {b c : Char} {s : List Char} {l : Lexeme} {n : Nat} (inert : Inert b)
    (found : lexeme? c s = some (l, n)) (t : List Char) : lexeme? c (s ++ b :: t) = some (l, n) := by
  by_cases quote : isQuote c = true
  · cases closed : closingQuote? c s with
    | none => simp [quoteAlone quote closed] at found
    | some m =>
      have fits := Nat.le_of_lt (closingFits closed)
      rw [← found]
      simp [lexeme?, quote, closed, closingAppend (quoteSign quote).2 closed, List.take_append_of_le_length fits]
  · rwa [lexemeUnquoted inert (Bool.eq_false_iff.mpr quote)]

/- Nor is anything found because of it, if it is the last character. -/
theorem lexemeTrail {b c : Char} (inert : Inert b) (s : List Char) : lexeme? c (s ++ [b]) = lexeme? c s := by
  by_cases quote : isQuote c = true
  · obtain ⟨sign, noEscape⟩ := quoteSign quote
    cases closed : closingQuote? c s with
    | none =>
      have lone := (closingTrail noEscape (inert.other c sign) s).trans closed
      rw [quoteAlone quote closed, quoteAlone quote lone]
    | some m =>
      have found : lexeme? c s = some (.text (String.ofList (unescape (s.take m))), m + 1) := by
        simp [lexeme?, quote, closed]
      rw [found, lexemeBehind inert found []]
  · exact lexemeUnquoted inert (Bool.eq_false_iff.mpr quote) s []

theorem lexesTrail {b : Char} {s : List Char} {ls : List Lexeme} (blank : isBlank b = true)
    (lexed : Lexes (s ++ [b]) ls) : Lexes s ls := by
  generalize whole : s ++ [b] = t at lexed
  induction lexed generalizing s with
  | nil => simp at whole
  | @blank c t ls blank' others ih =>
    cases s with
    | nil =>
      obtain ⟨rfl, rfl⟩ := List.cons.inj whole
      exact others
    | cons d s =>
      obtain ⟨rfl, rest⟩ := List.cons.inj whole
      exact .blank blank' (ih rest)
  | @lexeme c t l n ls solid found others ih =>
    cases s with
    | nil =>
      obtain ⟨rfl, rfl⟩ := List.cons.inj whole
      simp [blank] at solid
    | cons d s =>
      obtain ⟨rfl, same⟩ := List.cons.inj whole
      have same : s ++ [b] = t := same
      rw [← same, lexemeTrail (blankInert blank)] at found
      refine .lexeme solid found (ih ?_)
      rw [← same, List.drop_append_of_le_length (lexemeFits found)]

theorem lexesAppend {s t : List Char} {ls ls' : List Lexeme} (lexed : Lexes s ls) (others : Lexes t ls')
    (inert : ∀ c ∈ t.head?, Inert c) : Lexes (s ++ t) (ls ++ ls') := by
  induction lexed with
  | nil => exact others
  | blank blank _ ih => exact .blank blank ih
  | @lexeme c s l n ls solid found _ ih =>
    have behind : lexeme? c (s ++ t) = some (l, n) := by
      cases t with
      | nil => rwa [List.append_nil]
      | cons b t => exact lexemeBehind (inert b rfl) found t
    refine .lexeme solid behind ?_
    rw [List.append_eq, List.drop_append_of_le_length (lexemeFits found)]
    exact ih

theorem lexesStripped {s : List Char} {ls : List Lexeme} (lexed : Lexes s ls) : Lexes (strip s) ls := by
  have front : Lexes (stripFront s) ls := by
    induction lexed with
    | nil => exact .nil
    | blank blank _ ih => simpa [stripFront, blank] using ih
    | lexeme solid found others => simpa [stripFront, solid] using Lexes.lexeme solid found others
  revert front
  rw [strip]
  generalize stripFront s = t
  intro front
  -- What stands at the end goes away from behind, one blank after the other.
  induction t using List.reverseRecOn with
  | nil => simpa [stripBack] using front
  | append_singleton t b ih =>
    by_cases blank : isBlank b = true
    · simpa [stripBack, blank] using ih (lexesTrail blank front)
    · simpa [stripBack, blank] using front

theorem parseStripped {text : String} {e : Expr} (ok : parse text = .ok e) : parse (trim text) = .ok e := by
  obtain ⟨ls, lexed, reads⟩ := parseReads.mp ok
  exact parseReads.mpr ⟨ls, by simpa [trim] using lexesStripped lexed, reads⟩

end Stencil.Expr
