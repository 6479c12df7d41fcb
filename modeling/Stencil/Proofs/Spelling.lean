import Stencil.Expr.Printer
import Stencil.Proofs.Blocks
import Stencil.Proofs.Stripping

/-! How the lexemes of an expression are spelled. A number, a text, a name or a keyword that was written out
is read back whole, whatever stands behind it that can be no part of it. -/
namespace Stencil.Expr

open Text

/- No lexeme of more than one character goes on with what stands here. -/
def Apart (t : List Char) : Prop := ∀ c ∈ t.head?, c ∈ [' ', '(', ')', ',']

theorem apartPart {c : Char} (stop : c ∈ [' ', '(', ')', ',']) :
    isDecimal c = false ∧ isWord c = false ∧ isNameRest c = false ∧ c ≠ '.' := by
  have all : [' ', '(', ')', ','].all (fun d => !isDecimal d && !isWord d && !isNameRest d && d != '.') = true := by
    decide +kernel
  simpa [and_assoc] using List.all_eq_true.mp all c stop

/- The characters spell the lexeme: it is read from them and takes nothing of what follows. They begin no
operator that stands behind another. -/
def Spells (s : List Char) (x : Lexeme) : Prop :=
  ∃ c r, s = c :: r ∧ isBlank c = false ∧ c ≠ '=' ∧
    ∀ t, Apart t → lexeme? c (r ++ t) = some (x, r.length)

variable {s t : List Char} {x : Lexeme} {ls : List Lexeme}

theorem spellsLexes (spells : Spells s x) (apart : Apart t) (lexed : Lexes t ls) : Lexes (s ++ t) (x :: ls) := by
  obtain ⟨c, r, rfl, solid, -, read⟩ := spells
  refine .lexeme solid (read t apart) ?_
  rw [List.append_eq, List.drop_left]
  exact lexed

/- A text that is one lexeme is the expression that is read from the lexeme. -/
theorem aloneParses {text : String} {e : Expr} (spells : Spells text.toList x) (reads : Reads .primary [x] [e] []) :
    parse text = .ok e := by
  have lexed := spellsLexes spells (by simp [Apart]) .nil
  have compared : Reads (.binary .comparison) [x] [e] [] := .binary (.comparison (.unary reads)) (.stop (by simp))
  exact parseReads.mpr ⟨[x], by simpa using lexed, levelWhole compared⟩

/- What an ASCII digit is and what it is not. -/
structure Numeral (c : Char) : Prop where
  decimal : isDecimal c = true
  solid : isBlank c = false
  ascii : Reader.asciiDigit c = c
  quote : isQuote c = false
  digit : c.isDigit = true
  lower : c.toLower = c
  sign : c ∉ ['=', '-', '+', '_', '.']
  mark : c ∉ ['=', '!', '>', '<', '&', '|', '(', ')', ',']
  name : isNameStart c = false

theorem digitNumeral {c : Char} (digit : c.isDigit = true) : Numeral c := by
  have below : c.toNat < 128 := asciiBelow (by simp [isAsciiWord, Char.isAlphanum, digit])
  have facts : c.isDigit = true → (isDecimal c = true ∧ isBlank c = false ∧ Reader.asciiDigit c = c ∧
      isQuote c = false) ∧ c.toLower = c ∧ c ∉ ['=', '-', '+', '_', '.'] ∧
        c ∉ ['=', '!', '>', '<', '&', '|', '(', ')', ','] ∧ isNameStart c = false :=
    asciiForall c below (by decide +kernel)
  obtain ⟨⟨decimal, solid, ascii, quote⟩, lower, sign, mark, name⟩ := facts digit
  exact ⟨decimal, solid, ascii, quote, digit, lower, sign, mark, name⟩

theorem naturalDigits (n : Nat) : ∀ c ∈ Nat.toDigits 10 n, Numeral c := by
  intro c member
  exact digitNumeral (Nat.isDigit_of_mem_toDigits (by omega) (by omega) member)

theorem integerText (n : Int) : (toString n).toList =
    if n < 0 then '-' :: Nat.toDigits 10 n.natAbs else Nat.toDigits 10 n.natAbs := by
  rw [Int.toString_eq_repr]
  cases n with
  | ofNat m =>
    have positive : ¬ Int.ofNat m < 0 := Int.not_lt.mpr (Int.natCast_nonneg m)
    rw [if_neg positive, Int.repr, Nat.repr_eq_ofList_toDigits, String.toList_ofList]
    rfl
  | negSucc m =>
    rw [if_pos (Int.negSucc_lt_zero m), Int.repr, Nat.repr_eq_ofList_toDigits, String.toList_append,
      String.toList_ofList, String.toList_ofList, Int.natAbs_negSucc]
    rfl

/- Digits in front of what is neither a digit nor a point. -/
theorem digitsBehind {ds : List Char} (digits : ∀ d ∈ ds, Numeral d) (written : ds ≠ [])
    (other : ∀ c ∈ t.head?, isDecimal c = false ∧ c ≠ '.') :
    afterDigits? (ds ++ t) = if t.head?.any (fun c => isWord c || c = '.') then none else some t := by
  have whole : (ds ++ t).takeWhile isDecimal = ds := by
    rw [List.takeWhile_append_of_pos (fun d member => (digits d member).decimal)]
    cases t with
    | nil => simp
    | cons c t => simp [(other c rfl).1]
  simp only [afterDigits?, whole, List.drop_left, List.isEmpty_eq_false_iff.mpr written, Bool.false_or]
  cases t with
  | nil => rfl
  | cons c t => simp [(other c rfl).2]

theorem digitsEnd {ds : List Char} (digits : ∀ c ∈ ds, Numeral c) (written : ds ≠ []) (apart : Apart t) :
    afterDigits? (ds ++ t) = some t := by
  have other : ∀ c ∈ t.head?, isDecimal c = false ∧ isWord c = false ∧ isNameRest c = false ∧ c ≠ '.' :=
    fun c first => apartPart (apart c first)
  rw [digitsBehind digits written fun c first => ⟨(other c first).1, (other c first).2.2.2⟩]
  cases t with
  | nil => rfl
  | cons c t => simp [other c rfl]

/- The number of an integer's text ends with the text. -/
theorem integerLength (n : Int) (apart : Apart t) :
    numberLength? ((toString n).toList ++ t) = some (toString n).toList.length := by
  have numerals := naturalDigits n.natAbs
  have ends := digitsEnd numerals Nat.toDigits_ne_nil apart
  rw [integerText]
  split
  · rw [List.cons_append, numberSigned, ends]
    simp
    omega
  · have unsigned : (Nat.toDigits 10 n.natAbs ++ t).head? ≠ some '-' := by
      obtain ⟨c, ds, digits⟩ := List.exists_cons_of_ne_nil (Nat.toDigits_ne_nil (n := n.natAbs) (b := 10))
      rw [digits] at numerals ⊢
      have sign := (numerals c List.mem_cons_self).sign
      rintro same
      cases same
      exact sign (by simp)
    rw [numberUnsigned unsigned, ends]
    simp

theorem integerSpells (n : Int) : Spells (toString n).toList (.number (toString n)) := by
  obtain ⟨c, r, text, solid, other, quote⟩ : ∃ c r, (toString n).toList = c :: r ∧ isBlank c = false ∧ c ≠ '=' ∧
      isQuote c = false := by
    rw [integerText]
    split
    · exact ⟨'-', _, rfl, by decide, by decide, by decide⟩
    · obtain ⟨c, r, digits⟩ := List.exists_cons_of_ne_nil (Nat.toDigits_ne_nil (n := n.natAbs) (b := 10))
      have numeral := naturalDigits n.natAbs c (by simp [digits])
      exact ⟨c, r, digits, numeral.solid, fun same => numeral.sign (by simp [same]), numeral.quote⟩
  refine ⟨c, r, text, solid, other, ?_⟩
  intro t apart
  have length := integerLength n apart
  rw [text, List.cons_append] at length
  have all : (c :: (r ++ t)).take (c :: r).length = c :: r := by simp
  have whole : String.ofList (c :: r) = toString n := by rw [← text, String.ofList_toList]
  simp only [lexeme?, quote, length, all, whole]
  rfl

theorem natOfDigits (n : Nat) : Reader.natOf (Nat.toDigits 10 n) = n :=
  Nat.ofDigitChars_toDigits (by omega) (by omega)

theorem joinedPlain {s : List Char} (plain : '_' ∉ s) (before : Bool) : Reader.joinDigits before s = some s := by
  induction s generalizing before with
  | nil => rfl
  | cons c s ih =>
    simp only [List.mem_cons, not_or] at plain
    have noJoint : c ≠ '_' := Ne.symm plain.1
    rw [Reader.joinDigits]
    · rw [if_neg noJoint, ih plain.2]
      rfl
    · intro d rest same
      exact absurd same noJoint

theorem joinedDigits {ds : List Char} (digits : ∀ c ∈ ds, Numeral c) (before : Bool) :
    Reader.joinDigits before ds = some ds :=
  joinedPlain (fun member => (digits '_' member).sign (by simp)) before

theorem marginSolid {s : List Char} (first : ∀ c ∈ s.head?, isBlank c = false)
    (last : ∀ c ∈ s.getLast?, isBlank c = false) : Reader.trimMargin s = s := by
  have solid {s : List Char} (first : ∀ c ∈ s.head?, isBlank c = false) : s.dropWhile Reader.isMargin = s := by
    cases s with
    | nil => rfl
    | cons c s => simp [Reader.isMargin, first c rfl]
  rw [Reader.trimMargin, solid first, solid, List.reverse_reverse]
  rwa [List.head?_reverse]

theorem digitsFit {n : Nat} (limit : Nat) (positive : 0 < limit) :
    (Nat.toDigits 10 n).length ≤ limit ↔ n < Nat.pow 10 limit :=
  Nat.length_toDigits_le_iff (by omega) positive

theorem digitsLong {n : Nat} (limit : Nat) (positive : 0 < limit) (long : limit < (Nat.toDigits 10 n).length) :
    Nat.pow 10 limit ≤ n := by
  by_contra short
  exact Nat.not_le.mpr long ((digitsFit limit positive).mpr (Nat.not_le.mp short))

theorem signSplits {ds : List Char} (digits : ∀ c ∈ ds.head?, Numeral c) (written : ds ≠ []) (negative : Bool) :
    Reader.sign (if negative then '-' :: ds else ds) = (negative, ds) := by
  cases negative with
  | true => rfl
  | false =>
    obtain ⟨c, rest, rfl⟩ := List.exists_cons_of_ne_nil written
    have sign := (digits c rfl).sign
    rw [if_neg (by simp), Reader.sign]
    · intro d same
      exact sign (by simp [(List.cons.inj same).1])
    · intro d same
      exact sign (by simp [(List.cons.inj same).1])

/- Digits behind their sign are not changed before they are read. -/
theorem signedDigits {text : String} {ds : List Char} {negative : Bool}
    (spelled : text.toList = if negative then '-' :: ds else ds) (digits : ∀ c ∈ ds, Numeral c)
    (written : ds ≠ []) : (∀ c ∈ text.toList, isBlank c = false) ∧ text.toList.map Reader.asciiDigit = text.toList ∧
      Reader.sign text.toList = (negative, ds) := by
  refine ⟨fun c member => ?_, ?_, ?_⟩
  · rw [spelled] at member
    split at member
    · rcases List.mem_cons.mp member with rfl | digit
      · decide
      · exact (digits c digit).solid
    · exact (digits c member).solid
  · have sign : Reader.asciiDigit '-' = '-' := by decide
    have same : ds.map Reader.asciiDigit = ds := by
      rw [List.map_congr_left (fun c member => (digits c member).ascii), List.map_id']
    rw [spelled]
    split <;> simp [same, sign]
  · exact spelled ▸ signSplits (fun c first => digits c (List.mem_of_mem_head? first)) written negative

/- Digits are read as they stand, behind their sign. -/
theorem digitsRead {limit : Nat} {text : String} {ds : List Char} {negative : Bool}
    (spelled : text.toList = if negative then '-' :: ds else ds) (digits : ∀ c ∈ ds, Numeral c)
    (written : ds ≠ []) :
    Reader.integer limit text =
      if limit < ds.length then .tooLong ds.length
      else .number (if negative then -(Reader.natOf ds : Int) else Reader.natOf ds) := by
  obtain ⟨solid, ascii, cut⟩ := signedDigits spelled digits written
  have grouped : ∀ c ∈ ds, (c.isDigit || decide (c = '_')) = true := by
    intro c member
    simp [(digits c member).digit]
  have whole : ds.takeWhile (fun c => c.isDigit || decide (c = '_')) = ds := List.takeWhile_eq_self_iff.mpr grouped
  rw [Reader.integer, marginSolid (fun c first => solid c (List.mem_of_mem_head? first))
    (fun c last => solid c (List.mem_of_getLast? last)), ascii, cut]
  obtain ⟨c, rest, rfl⟩ := List.exists_cons_of_ne_nil written
  simp only [whole, joinedDigits digits, List.all_eq_true.mpr grouped, if_true]

/- A word begins with a letter. -/
theorem digitNoWord {c : Char} (first : Numeral c) (s : List Char) {word : String}
    (letter : ∀ d ∈ word.toList.head?, d.isDigit = false) :
    (String.ofList (Reader.lowerAscii (c :: s)) == word) = false := by
  rw [beq_eq_false_iff_ne]
  rintro rfl
  have no := letter c (by simp [Reader.lowerAscii, first.lower])
  rw [first.digit] at no
  cases no

def grouped (c : Char) : Bool := c.isDigit || c = '_'

/- A number that was read is digits and low lines behind its sign, and there are not too many digits. -/
theorem numberGrouped {limit : Nat} {text : String} {n : Int} (read : Reader.integer limit text = .number n) :
    (Reader.sign ((Reader.trimMargin text.toList).map Reader.asciiDigit)).2.all grouped = true ∧
      ∃ digits, Reader.joinDigits false (Reader.sign ((Reader.trimMargin text.toList).map Reader.asciiDigit)).2 =
        some digits ∧ digits.length ≤ limit ∧ n.natAbs = Reader.natOf digits := by
  rw [Reader.integer] at read
  generalize Reader.sign ((Reader.trimMargin text.toList).map Reader.asciiDigit) = signed at read ⊢
  obtain ⟨negative, body⟩ := signed
  have same : (fun c : Char => c.isDigit || decide (c = '_')) = grouped := rfl
  simp only [same] at read
  split at read
  · cases read
  · cases read
  · rename_i digits _ joined
    split at read
    · cases read
    · rename_i short
      split at read
      · rename_i all
        have whole : body.takeWhile grouped = body := List.takeWhile_eq_self_iff.mpr (List.all_eq_true.mp all)
        have value : (if negative then -(Reader.natOf digits : Int) else Reader.natOf digits) = n := by
          simpa using read
        rw [whole] at joined
        refine ⟨all, digits, joined, Nat.not_lt.mp short, ?_⟩
        rw [← value]
        split <;> simp
      · cases read

/- An integer is read back from its text if it does not have too many digits. -/
theorem integerReads (n : Int) : numberValue (toString n) = if n.natAbs < Value.leastUnwritable then .ok (.int n)
    else .error (.tooManyDigits (Nat.toDigits 10 n.natAbs).length) := by
  have numerals := naturalDigits n.natAbs
  have spelled : (toString n).toList =
      if decide (n < 0) then '-' :: Nat.toDigits 10 n.natAbs else Nat.toDigits 10 n.natAbs := by
    simp only [integerText, decide_eq_true_eq]
  have whole : (toString n).toList.contains '.' = false := by
    rw [spelled, List.contains_eq_mem, decide_eq_false_iff_not]
    intro dot
    have digit : '.' ∈ Nat.toDigits 10 n.natAbs := by
      split at dot
      · simpa using dot
      · exact dot
    exact (numerals '.' digit).sign (by simp)
  have fits := @digitsFit n.natAbs ValueFault.maxDigits (by decide)
  have read := @digitsRead ValueFault.maxDigits _ _ _ spelled numerals Nat.toDigits_ne_nil
  have value : (if decide (n < 0) then -(Reader.natOf (Nat.toDigits 10 n.natAbs) : Int)
      else Reader.natOf (Nat.toDigits 10 n.natAbs)) = n := by
    rw [natOfDigits]
    split <;> rename_i sign <;> simp only [decide_eq_true_eq] at sign <;> omega
  rw [numberValue, whole, if_neg (by simp), Path.readInteger, read, value]
  unfold Value.leastUnwritable
  by_cases short : n.natAbs < Nat.pow 10 ValueFault.maxDigits
  · rw [if_pos short, if_neg (Nat.not_lt.mpr (fits.mpr short))]
    rfl
  · rw [if_neg short, if_pos (Nat.not_le.mp (mt fits.mp short))]
    rfl

theorem integerRead {n : Int} (short : n.natAbs < Value.leastUnwritable) : numberValue (toString n) = .ok (.int n) := by
  rw [integerReads, if_pos short]

/- Characters that are written as themselves or behind one backslash. -/
def writable (c : Char) : Bool := 32 ≤ c.toNat || c = '\n' || c = '\r' || c = '\t'

theorem unescapeCons {c : Char} (plain : c ≠ '\\') (s : List Char) : unescape (c :: s) = c :: unescape s := by
  rw [unescape]
  rintro d rest same
  exact absurd same plain

/- How a character of a text between quotes may be written: as it is, or as another one behind a backslash. -/
def Written (quote : Char) (write : Char → List Char) (c : Char) : Prop :=
  (write c = [c] ∧ c ≠ quote ∧ c ≠ '\\') ∨ ∃ d, write c = ['\\', d] ∧ escaped d = c

theorem jsonCharWritten {c : Char} (fine : writable c = true) : Written '"' jsonChar c := by
  unfold Written jsonChar
  split
  · rename_i same
    exact .inr ⟨_, rfl, by rw [same]; decide⟩
  · rename_i quote
    split
    · rename_i same
      exact .inr ⟨_, rfl, by rw [same]; decide⟩
    · rename_i backslash
      split
      · rename_i same
        exact .inr ⟨_, rfl, by rw [same]; decide⟩
      · split
        · rename_i same
          exact .inr ⟨_, rfl, by rw [same]; decide⟩
        · split
          · rename_i same
            exact .inr ⟨_, rfl, by rw [same]; decide⟩
          · rename_i line feed tab
            have above : 32 ≤ c.toNat := by simpa [writable, line, feed, tab] using fine
            have noBack : ¬ c.toNat = 8 := by omega
            have noFeed : ¬ c.toNat = 12 := by omega
            rw [if_neg noBack, if_neg noFeed, if_neg (by omega)]
            exact .inl ⟨rfl, quote, backslash⟩

/- A text between quotes ends at the quote that was put behind it, and is read as it was. -/
theorem textCloses {quote : Char} {write : Char → List Char} {s : List Char} (written : ∀ c ∈ s, Written quote write c)
    (noEscape : quote ≠ '\\') (t : List Char) :
    closingQuote? quote (s.flatMap write ++ quote :: t) = some (s.flatMap write).length ∧
      unescape (s.flatMap write) = s := by
  induction s with
  | nil => exact ⟨by simp [closingCons noEscape], rfl⟩
  | cons c s ih =>
    obtain ⟨closed, read⟩ := ih (fun d member => written d (List.mem_cons_of_mem c member))
    rw [List.flatMap_cons, List.append_assoc]
    obtain ⟨same, other, backslash⟩ | ⟨d, same, escapes⟩ := written c List.mem_cons_self
    · rw [same, List.singleton_append, List.singleton_append, closingCons backslash, if_neg other, closed,
        unescapeCons backslash, read]
      exact ⟨rfl, rfl⟩
    · rw [same]
      simp only [List.cons_append, List.nil_append, closingQuote?, closed, unescape, read, escapes,
        Option.map_some, List.length_cons]
      exact ⟨trivial, trivial⟩

theorem textSpells {quote : Char} {write : Char → List Char} {text : String} (sign : isQuote quote = true)
    (written : ∀ c ∈ text.toList, Written quote write c) :
    Spells (quote :: (text.toList.flatMap write ++ [quote])) (.text text) := by
  have solid : isBlank quote = false ∧ quote ≠ '=' := by
    simp only [isQuote, Bool.or_eq_true, decide_eq_true_eq] at sign
    rcases sign with rfl | rfl <;> decide
  refine ⟨quote, text.toList.flatMap write ++ [quote], rfl, solid.1, solid.2, ?_⟩
  intro t _
  obtain ⟨closed, read⟩ := textCloses written (quoteSign sign).2 t
  have cut : (text.toList.flatMap write ++ [quote] ++ t).take (text.toList.flatMap write).length =
      text.toList.flatMap write := by
    rw [List.append_assoc, List.take_left]
  rw [List.append_assoc, List.singleton_append] at cut ⊢
  simp only [lexeme?, sign, if_true, closed, cut, read, String.ofList_toList]
  simp

theorem jsonSpells {text : String} (fine : ∀ c ∈ text.toList, writable c = true) :
    Spells (jsonString text).toList (.text text) := by
  have spells := @textSpells '"' jsonChar text (by decide) (fun c member => jsonCharWritten (fine c member))
  simpa [jsonString] using spells

/- A dotted path: its parts are not empty, and no part but the first may begin with a digit. -/
def isDotted (s : List Char) : Bool :=
  s.head?.any isNameStart && (pieces '.' s).all (fun p => !p.isEmpty && p.all isNameRest)

/- All of a path belongs to it. -/
theorem dottedLength {s : List Char} (parts : ∀ p ∈ pieces '.' s, p.all isNameRest = true)
    (behind : ∀ p ∈ (pieces '.' s).tail, p ≠ []) : nameLength s = s.length := by
  induction s with
  | nil => rfl
  | cons c s ih =>
    by_cases dot : c = '.'
    · subst dot
      rw [pieces_cons_self] at parts behind
      have others := ih (fun p member => parts p (List.mem_cons_of_mem _ member))
        (fun p member => behind p (List.mem_of_mem_tail member))
      have next : s.head?.any isNameRest = true := by
        cases s with
        | nil => exact absurd rfl (behind [] (by simp [pieces]))
        | cons d s =>
          by_cases again : d = '.'
          · subst again
            exact absurd rfl (behind [] (by simp [pieces_cons_self]))
          · obtain ⟨p, ps, -, grown⟩ := piecesGrow again s
            have all := parts (d :: p) (by simp [grown])
            simp only [List.all_cons, Bool.and_eq_true] at all
            simpa using all.1
      have never : isNameRest '.' = false := by decide +kernel
      simp [nameLength, never, next, others]
    · obtain ⟨p, ps, cut, grown⟩ := piecesGrow dot s
      rw [grown] at parts behind
      have all := parts (c :: p) List.mem_cons_self
      simp only [List.all_cons, Bool.and_eq_true] at all
      have others : nameLength s = s.length := by
        refine ih ?_ ?_
        · rw [cut]
          intro q member
          rcases List.mem_cons.mp member with rfl | later
          · exact all.2
          · exact parts q (List.mem_cons_of_mem _ later)
        · rw [cut]
          exact behind
      simp [nameLength, all.1, others]

theorem nameApart {s t : List Char} (whole : nameLength s = s.length) (apart : Apart t) :
    nameLength (s ++ t) = s.length := by
  induction s with
  | nil =>
    cases t with
    | nil => rfl
    | cons c t =>
      obtain ⟨-, -, part, dot⟩ := apartPart (apart c rfl)
      simp [nameLength, part, dot]
  | cons c s ih =>
    rw [List.cons_append]
    simp only [nameLength, List.length_cons] at whole ⊢
    split at whole
    · rename_i part
      rw [if_pos part, ih (by omega)]
    · rename_i part
      split at whole
      · rename_i goes
        simp only [Bool.and_eq_true, decide_eq_true_eq] at goes
        have next : ((s ++ t).head?.any isNameRest) = true := by
          cases s with
          | nil => simp at goes
          | cons d s => simpa using goes.2
        rw [if_neg part, if_pos ((Bool.and_eq_true _ _).mpr ⟨decide_eq_true goes.1, next⟩), ih (by omega)]
      · cases whole

/- What may begin a name begins nothing else. -/
structure Initial (c : Char) : Prop where
  decimal : isDecimal c = false
  solid : isBlank c = false
  quote : isQuote c = false
  sign : c ∉ ['=', '!', '>', '<', '&', '|', '-', '(', ')', ',']

theorem startInitial {c : Char} (start : isNameStart c = true) : Initial c := by
  have below : c.toNat < 128 := by
    simp only [isNameStart, Bool.or_eq_true, decide_eq_true_eq] at start
    rcases start with letter | rfl
    · exact asciiBelow (startWord letter)
    · decide
  have facts : isNameStart c = true → isDecimal c = false ∧ isBlank c = false ∧ isQuote c = false ∧
      c ∉ ['=', '!', '>', '<', '&', '|', '-', '(', ')', ','] := asciiForall c below (by decide +kernel)
  obtain ⟨decimal, solid, quote, sign⟩ := facts start
  exact ⟨decimal, solid, quote, sign⟩

/- The lexeme that a whole name is: a keyword or a path. -/
def nameLexeme (name : String) : Lexeme :=
  match Keyword.ofSpelling? name with
  | some k => .keyword k
  | none => .name name

theorem nameSpells {name : String} (start : name.toList.head?.any isNameStart = true)
    (whole : nameLength name.toList.tail = name.toList.tail.length) :
    Spells name.toList (nameLexeme name) := by
  cases spelled : name.toList with
  | nil => simp [spelled] at start
  | cons c r =>
    rw [spelled] at start whole
    have initial := startInitial (c := c) (by simpa using start)
    obtain ⟨other, bang, more, less, amp, bar, minus, opening, closing, comma⟩ : c ≠ '=' ∧ c ≠ '!' ∧ c ≠ '>' ∧
        c ≠ '<' ∧ c ≠ '&' ∧ c ≠ '|' ∧ c ≠ '-' ∧ c ≠ '(' ∧ c ≠ ')' ∧ c ≠ ',' := by
      simpa [not_or] using initial.sign
    refine ⟨c, r, rfl, initial.solid, other, ?_⟩
    intro t apart
    have length := nameApart whole apart
    have name' : String.ofList (c :: (r ++ t).take r.length) = name := by
      rw [List.take_left, ← spelled, String.ofList_toList]
    have first : isNameStart c = true := by simpa using start
    have noSign : c ∉ ['=', '!', '>', '<', '&', '|'] := by simp [other, bang, more, less, amp, bar]
    have tail : (c :: r).tail = r := rfl
    rw [tail] at length
    simp only [lexeme?, initial.quote, noNumber initial.decimal minus, noOperator noSign, opening, closing, comma,
      first, length, name', if_true, if_false, Bool.false_eq_true]
    cases known : Keyword.ofSpelling? name with
    | none => simp [nameLexeme, known]
    | some k => simp [nameLexeme, known]

theorem dottedSpells {path : String} (dotted : isDotted path.toList = true) :
    Spells path.toList (nameLexeme path) := by
  simp only [isDotted, Bool.and_eq_true, List.all_eq_true, Bool.not_eq_true', List.isEmpty_eq_false_iff] at dotted
  obtain ⟨start, parts⟩ := dotted
  refine nameSpells start ?_
  cases spelled : path.toList with
  | nil => rfl
  | cons c r =>
    rw [spelled] at start parts
    have noDot : c ≠ '.' := startIsNoDot (by simpa using start)
    obtain ⟨p, ps, cut, grown⟩ := piecesGrow noDot r
    rw [grown] at parts
    refine dottedLength ?_ ?_
    · rw [List.tail_cons, cut]
      intro q member
      rw [List.all_eq_true]
      rcases List.mem_cons.mp member with rfl | later
      · exact fun d inside => (parts (c :: q) List.mem_cons_self).2 d (List.mem_cons_of_mem c inside)
      · exact (parts q (List.mem_cons_of_mem _ later)).2
    · rw [List.tail_cons, cut]
      exact fun q later => (parts q (List.mem_cons_of_mem _ later)).1

theorem wordLength {s : List Char} (word : ∀ c ∈ s, isWord c = true) : nameLength s = s.length := by
  induction s with
  | nil => rfl
  | cons c s ih =>
    have part : isNameRest c = true := by simp [isNameRest, word c List.mem_cons_self]
    simp [nameLength, part, ih (fun d member => word d (List.mem_cons_of_mem c member))]

theorem callSpells {name : String} (valid : isCallName name = true) : Spells name.toList (nameLexeme name) := by
  rw [isCallName] at valid
  cases spelled : name.toList with
  | nil => simp [spelled, isWordName] at valid
  | cons c r =>
    simp only [spelled, isWordName, Bool.and_eq_true, List.all_eq_true] at valid
    rw [← spelled]
    refine nameSpells ?_ ?_
    · simp [spelled, isNameStart, valid.1]
    · rw [spelled]
      exact wordLength valid.2

/- The marks end with their one character. -/
theorem markRead {c : Char} {x : Lexeme} (mark : (c, x) ∈ [('(', Lexeme.opening), (')', .closing), (',', .comma)])
    (t : List Char) : isBlank c = false ∧ lexeme? c t = some (x, 0) := by
  have decimals : isDecimal '(' = false ∧ isDecimal ')' = false ∧ isDecimal ',' = false := by decide +kernel
  obtain ⟨opening, closing, comma⟩ := decimals
  simp only [List.mem_cons, Prod.mk.injEq, List.not_mem_nil, or_false] at mark
  rcases mark with ⟨rfl, rfl⟩ | ⟨rfl, rfl⟩ | ⟨rfl, rfl⟩ <;>
    exact ⟨by decide, by simp [lexeme?, isQuote, noNumber, noOperator, opening, closing, comma]⟩

theorem markLexes {c : Char} {x : Lexeme} (mark : (c, x) ∈ [('(', Lexeme.opening), (')', .closing), (',', .comma)])
    (lexed : Lexes t ls) : Lexes (c :: t) (x :: ls) :=
  .lexeme (markRead mark t).1 (markRead mark t).2 lexed

theorem operatorRead {c : Char} {o : Operator} (sign : c ∈ ['=', '!', '>', '<', '&', '|'])
    (first : operator? (c :: t) = some o) : isBlank c = false ∧
      lexeme? c t = some (.operator o, o.spelling.length - 1) := by
  have facts : ['=', '!', '>', '<', '&', '|'].all (fun d => !isBlank d && !isDecimal d && !isQuote d && d != '-') =
      true := by decide +kernel
  have fact := List.all_eq_true.mp facts c sign
  simp only [Bool.and_eq_true, Bool.not_eq_true', bne_iff_ne] at fact
  obtain ⟨⟨⟨solid, decimal⟩, quote⟩, minus⟩ := fact
  exact ⟨solid, by simp [lexeme?, quote, noNumber decimal minus, first]⟩

/- The other operators that begin like this one go on with an equals sign. -/
theorem notRead (other : t.head? ≠ some '=') : operator? ('!' :: t) = some .not := by
  have seconds : Operator.all.dropLast.all (fun o =>
      o.spelling.toList.head?.any (· != '!') || o.spelling.toList.tail.head? == some '=') = true := by decide
  rw [operator?, List.find?_eq_some_iff_append]
  refine ⟨rfl, Operator.all.dropLast, [], rfl, ?_⟩
  intro o known
  have second := List.all_eq_true.mp seconds o known
  rw [Bool.not_eq_true', ← Bool.not_eq_true, List.isPrefixOf_iff_prefix]
  rintro ⟨u, same⟩
  cases spelled : o.spelling.toList with
  | nil =>
    rw [spelled] at second
    simp at second
  | cons d rest =>
    rw [spelled, List.cons_append] at same
    obtain ⟨rfl, behind⟩ := List.cons.inj same
    cases rest with
    | nil => simp [spelled] at second
    | cons e rest =>
      have equals : e = '=' := by simpa [spelled] using second
      exact other (by rw [← behind, equals]; rfl)

theorem notLexes (other : t.head? ≠ some '=') (lexed : Lexes t ls) : Lexes ('!' :: t) (.operator .not :: ls) := by
  obtain ⟨solid, read⟩ := operatorRead (by simp) (notRead other)
  exact .lexeme solid read lexed

/- An operator ends where something stands that is no part of one. -/
theorem operatorLexes {o : Operator} {b : Char} (known : o ∈ Operator.all) (inert : Inert b)
    (lexed : Lexes (b :: t) ls) : Lexes (o.spelling.toList ++ b :: t) (.operator o :: ls) := by
  have alone : Operator.all.all (fun o => operator? o.spelling.toList = some o) = true := by decide
  have begins : Operator.all.all (fun o => o.spelling.toList.head?.any (['=', '!', '>', '<', '&', '|'].contains ·)) =
      true := by decide
  have first : operator? (o.spelling.toList ++ b :: t) = some o := by
    rw [operatorTrail inert]
    simpa using List.all_eq_true.mp alone o known
  have sort := List.all_eq_true.mp begins o known
  cases spelled : o.spelling.toList with
  | nil => simp [spelled] at sort
  | cons c r =>
    rw [spelled] at first
    have sign : c ∈ ['=', '!', '>', '<', '&', '|'] := by simpa [spelled] using sort
    obtain ⟨solid, read⟩ := operatorRead sign first
    have size : o.spelling.length - 1 = r.length := by rw [← String.length_toList, spelled]; rfl
    rw [size] at read
    refine .lexeme solid read ?_
    rw [List.append_eq, List.drop_left]
    exact lexed

/- An operator between blanks. -/
theorem operatorPadded {o : Operator} (known : o ∈ Operator.all) (lexed : Lexes t ls) :
    Lexes (' ' :: (o.spelling.toList ++ ' ' :: t)) (.operator o :: ls) := by
  have blank : isBlank ' ' = true := by decide
  exact .blank blank (operatorLexes known (blankInert blank) (.blank blank lexed))

end Stencil.Expr
