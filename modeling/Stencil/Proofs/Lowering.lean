import Stencil.Proofs.Blocks
import Stencil.Proofs.Stripping

/-! Ignoring case. For ASCII it comes to the same whether case is ignored or everything is in lower case: each of the
ways in which delimiters are compared finds in a text what plain comparison finds in its lower case. -/
namespace Stencil

namespace Text

def Ascii (s : List Char) : Prop := ∀ c ∈ s, c.toNat < 128

instance (s : List Char) : Decidable (Ascii s) := decidable_of_iff (s.all (·.toNat < 128) = true) (by simp [Ascii])

theorem Ascii.head {c : Char} {s : List Char} (ascii : Ascii (c :: s)) : c.toNat < 128 := ascii c List.mem_cons_self

theorem Ascii.sub {s t : List Char} (ascii : Ascii t) (inside : s ⊆ t) : Ascii s :=
  fun c member => ascii c (inside member)

theorem Ascii.tail {c : Char} {s : List Char} (ascii : Ascii (c :: s)) : Ascii s :=
  ascii.sub (List.subset_cons_self c s)

/- What an ASCII character has in common with its lower case, and how the tables know it. -/
structure Lowers (c : Char) : Prop where
  alone : lowerChar c = [c.toLower]
  ascii : c.toLower.toNat < 128
  word : isWord c.toLower = isWord c
  blank : isBlank c.toLower = isBlank c
  quote : isQuote c.toLower = isQuote c
  marks : ∀ m ∈ ['\\', '\'', '"', '\n'], c.toLower = m ↔ c = m
  plain : within caseVariantBounds c.toNat = true ∨ c.toLower = c
  letter : c.toLower = c ∨ within caseVariantBounds c.toLower.toNat = true
  siblings : ∀ n ∈ (caseSiblings.lookup c.toLower.toNat).getD [], 128 ≤ n

theorem asciiLowers {c : Char} (ascii : c.toNat < 128) : Lowers c where
  alone := by rw [lowerChar, if_pos ascii]
  ascii := asciiForall c ascii (by decide +kernel)
  word := asciiForall c ascii (by decide +kernel)
  blank := asciiForall c ascii (by decide +kernel)
  quote := asciiForall c ascii (by decide +kernel)
  marks := by
    simp only [List.forall_mem_cons]
    refine ⟨?_, ?_, ?_, ?_, by simp⟩ <;> exact asciiForall c ascii (by decide +kernel)
  plain := asciiForall c ascii (by decide +kernel)
  letter := asciiForall c ascii (by decide +kernel)
  siblings := asciiForall c ascii (by decide +kernel)

variable {s : List Char}

theorem lowerAfterAscii (ascii : Ascii s) (before : List Char) : lowerAfter before s = s.map Char.toLower := by
  induction s generalizing before with
  | nil => rfl
  | cons c s ih =>
    have noSigma : c ≠ 'Σ' := by
      rintro rfl
      exact absurd ascii.head (by decide)
    rw [lowerAfter, if_neg noSigma, (asciiLowers ascii.head).alone, ih ascii.tail, List.map_cons]
    rfl

theorem lowerAscii (ascii : Ascii s) : lower s = s.map Char.toLower := lowerAfterAscii ascii []

theorem lowerTextList (ascii : Ascii s) : lowerText (String.ofList s) = String.ofList (s.map Char.toLower) := by
  rw [lowerText, String.toList_ofList, lowerAscii ascii]

theorem lowerTextAscii {t : String} (ascii : Ascii t.toList) :
    (lowerText t).toList = t.toList.map Char.toLower := by
  rw [lowerText, String.toList_ofList, lowerAscii ascii]

/- The table of case variants knows more siblings of a letter, but none in ASCII. -/
theorem sameLowered {p c : Char} (asciiP : p.toNat < 128) (asciiC : c.toNat < 128) :
    sameIgnoringCase p c = (p.toLower == c.toLower) := by
  have point {c : Char} (ascii : c.toNat < 128) : lowerPoint c = c.toLower := by
    rw [lowerPoint, (asciiLowers ascii).alone]
    rfl
  rw [sameIgnoringCase, point asciiP, point asciiC]
  split
  · have none : ((caseSiblings.lookup p.toLower.toNat).getD []).contains c.toLower.toNat = false := by
      rw [List.contains_eq_mem, decide_eq_false_iff_not]
      intro sibling
      exact absurd ((asciiLowers asciiP).siblings _ sibling) (Nat.not_le.mpr (asciiLowers asciiC).ascii)
    rw [none, Bool.or_false, Bool.beq_comm]
  · rename_i single
    have alone : p.toLower = p := (asciiLowers asciiP).plain.resolve_left single
    rw [alone, Bool.beq_comm, Bool.eq_iff_iff, beq_iff_eq, beq_iff_eq]
    constructor
    · rintro rfl
      exact alone.symm
    · intro same
      rcases (asciiLowers asciiC).letter with kept | variant
      · rw [← kept, same]
      · rw [← same] at variant
        exact absurd variant single

theorem dropBlankLowered (ascii : Ascii s) :
    (s.map Char.toLower).dropWhile isBlank = (s.dropWhile isBlank).map Char.toLower := by
  induction s with
  | nil => rfl
  | cons c s ih =>
    rw [List.map_cons, List.dropWhile_cons, List.dropWhile_cons, (asciiLowers ascii.head).blank]
    split
    · exact ih ascii.tail
    · rfl

theorem stripLowered (ascii : Ascii s) : strip (s.map Char.toLower) = (strip s).map Char.toLower := by
  have front := dropBlankLowered ascii
  have inside : Ascii (s.dropWhile isBlank).reverse :=
    ascii.sub fun c member => (List.dropWhile_suffix isBlank).subset (List.mem_reverse.mp member)
  rw [strip, strip, stripFront, stripFront, front, stripBack, stripBack, ← List.map_reverse, dropBlankLowered inside,
    List.map_reverse]

theorem stripInside (s : List Char) : strip s ⊆ s := by
  intro c member
  rw [strip, stripBack, List.mem_reverse] at member
  have front := List.mem_reverse.mp ((List.dropWhile_suffix isBlank).subset member)
  exact (List.dropWhile_suffix isBlank).subset front

theorem closingQuoteLowered {quote : Char} (mark : quote = '\'' ∨ quote = '"') (ascii : Ascii s) :
    closingQuote? quote (s.map Char.toLower) = closingQuote? quote s := by
  have listed : quote ∈ ['\\', '\'', '"', '\n'] := by rcases mark with rfl | rfl <;> decide
  have noEscape : quote ≠ '\\' := by rcases mark with rfl | rfl <;> decide
  have backslash : '\\'.toLower = '\\' := by decide
  fun_induction closingQuote? quote s with
  | case1 => rfl
  | case2 c rest ih => rw [List.map_cons, List.map_cons, backslash, closingQuote?, ih ascii.tail.tail]
  | case3 rest plain =>
    have same : quote.toLower = quote := ((asciiLowers ascii.head).marks quote listed).mpr rfl
    rw [List.map_cons, same, Expr.closingCons noEscape, if_pos rfl]
  | case4 c rest plain other ih =>
    have kept := (asciiLowers ascii.head).marks
    by_cases escape : c = '\\'
    · cases rest with
      | nil => simp [escape, closingQuote?, noEscape.symm]
      | cons e rest => exact absurd rfl (plain e rest escape)
    · have plain : c.toLower ≠ '\\' := fun same => escape ((kept '\\' (by decide)).mp same)
      have differs : c.toLower ≠ quote := fun same => other ((kept quote listed).mp same)
      rw [List.map_cons, Expr.closingCons plain, if_neg differs, ih ascii.tail]

end Text

theorem Position.advanceLowered {s : List Char} (ascii : Text.Ascii s) (p : Position) :
    p.advanceOver (s.map Char.toLower) = p.advanceOver s := by
  induction s generalizing p with
  | nil => rfl
  | cons c s ih =>
    have broken : c.toLower = '\n' ↔ c = '\n' := (Text.asciiLowers ascii.head).marks '\n' (by decide)
    have step : p.advance c.toLower = p.advance c := by simp only [advance, broken]
    simp only [advanceOver, List.map_cons, List.foldl_cons, step] at ih ⊢
    exact ih ascii.tail (p.advance c)

open Text

namespace Delimiters

/- The same delimiters in lower case, to be taken as they are. -/
def lowered (d : Delimiters) : Delimiters where
  variableStart := lowerText d.variableStart
  variableEnd := lowerText d.variableEnd
  conditionalStart := lowerText d.conditionalStart
  conditionalElse := lowerText d.conditionalElse
  conditionalEnd := lowerText d.conditionalEnd
  loopStart := lowerText d.loopStart
  loopEnd := lowerText d.loopEnd
  includeStart := lowerText d.includeStart
  commentStart := lowerText d.commentStart
  commentEnd := lowerText d.commentEnd
  ignoreCase := false

variable {d : Delimiters} {os : List Token.Opener} {s : List Char}

theorem openersLowered (folded : d.ignoreCase = true) : d.lowered.openers = d.openers := by
  simp [openers, lowered, fold, folded, lowerText]

theorem foldLowered (folded : d.ignoreCase = true) (ascii : Ascii s) :
    d.lowered.fold (s.map Char.toLower) = d.fold s := by
  simp only [fold, lowered, folded, Bool.false_eq_true, if_true, if_false, lowerAscii ascii]

theorem opensLowered (folded : d.ignoreCase = true) (ascii : Ascii s) (o : Token.Opener) :
    d.lowered.opensAt o (s.map Char.toLower) = d.opensAt o s := by
  have front : Ascii (s.take o.folded.length) := ascii.sub (List.take_subset _ _)
  have word : ((s.drop o.folded.length).map Char.toLower).head?.any isWord =
      (s.drop o.folded.length).head?.any isWord := by
    rw [List.head?_map]
    cases behind : (s.drop o.folded.length).head? with
    | none => rfl
    | some c =>
      have member : c ∈ s := List.drop_subset _ _ (List.mem_of_head? behind)
      exact (asciiLowers (ascii c member)).word
  simp only [opensAt, ← List.map_take, ← List.map_drop, foldLowered folded front, List.length_map, word]

theorem openerLowered (folded : d.ignoreCase = true) (ascii : Ascii s) :
    d.lowered.opener? os (s.map Char.toLower) = d.opener? os s := by
  simp only [opener?, opensLowered folded ascii]

theorem readsLowered (folded : d.ignoreCase = true) {needle : List Char} (written : Ascii needle) (ascii : Ascii s) :
    d.lowered.readsAt (needle.map Char.toLower) (s.map Char.toLower) = d.readsAt needle s := by
  induction needle generalizing s with
  | nil => rfl
  | cons p needle ih =>
    cases s with
    | nil => rfl
    | cons c s =>
      have cased : d.lowered.ignoreCase = false := rfl
      simp only [List.map_cons, readsAt, reads, folded, cased, Bool.false_eq_true, if_true, if_false,
        sameLowered written.head ascii.head, ih written.tail ascii.tail]

/- Openers that are in lower case already. -/
def InLower (os : List Token.Opener) : Prop := ∀ o ∈ os, Ascii o.folded ∧ o.folded.map Char.toLower = o.folded

theorem interruptsLowered (folded : d.ignoreCase = true) (inLower : InLower os) (ascii : Ascii s) :
    d.lowered.interrupts os (s.map Char.toLower) = d.interrupts os s := by
  have reads : os.any (fun o => d.lowered.readsAt o.folded (s.map Char.toLower)) =
      os.any (fun o => d.readsAt o.folded s) := by
    rw [Bool.eq_iff_iff, List.any_eq_true, List.any_eq_true]
    refine exists_congr fun o => and_congr_right fun member => ?_
    obtain ⟨written, low⟩ := inLower o member
    rw [← readsLowered folded written ascii, low]
  rw [interrupts, interrupts, reads, openerLowered folded ascii]

theorem textLowered (folded : d.ignoreCase = true) (inLower : InLower os) (ascii : Ascii s) :
    d.lowered.textLength os (s.map Char.toLower) = d.textLength os s := by
  induction s with
  | nil => rfl
  | cons c s ih =>
    rw [List.map_cons, textLength, textLength, ih ascii.tail, ← List.map_cons, interruptsLowered folded inLower ascii]

theorem closerLowered (folded : d.ignoreCase = true) (closer : List Char) (ascii : Ascii s) :
    d.lowered.closerIndex? closer (s.map Char.toLower) = d.closerIndex? closer s := by
  have stands {s : List Char} (ascii : Ascii s) :
      d.lowered.fold ((s.map Char.toLower).take closer.length) = d.fold (s.take closer.length) := by
    rw [← List.map_take, foldLowered folded (ascii.sub (List.take_subset _ _))]
  have quoted {c : Char} {rest : List Char} (ascii : Ascii (c :: rest)) :
      (if isQuote c.toLower then closingQuote? c.toLower (rest.map Char.toLower) else none) =
        if isQuote c then closingQuote? c rest else none := by
    rw [(asciiLowers ascii.head).quote]
    split
    · rename_i quote
      have mark : c = '\'' ∨ c = '"' := by simpa [isQuote] using quote
      have same : c.toLower = c := by rcases mark with rfl | rfl <;> decide
      rw [same, closingQuoteLowered mark ascii.tail]
    · rfl
  fun_induction closerIndex? d closer s with
  | case1 =>
    rw [List.map_nil, closerIndex?]
  | case2 c rest here =>
    rw [List.map_cons, closerIndex?, ← List.map_cons, stands ascii, if_pos here]
  | case3 c rest later n partner ih =>
    have inside : Ascii (rest.drop (n + 1)) := ascii.tail.sub (List.drop_subset _ _)
    rw [dite_eq_ite] at partner
    rw [List.map_cons, closerIndex?, ← List.map_cons, stands ascii, if_neg later, quoted ascii, partner, ← ih inside,
      List.map_drop]
  | case4 c rest later single ih =>
    rw [dite_eq_ite] at single
    rw [List.map_cons, closerIndex?, ← List.map_cons, stands ascii, if_neg later, quoted ascii, single, ← ih ascii.tail]

theorem commentLowered (folded : d.ignoreCase = true) (written : Ascii d.commentEnd.toList) (ascii : Ascii s) :
    d.lowered.commentLength? (s.map Char.toLower) = d.commentLength? s := by
  have ends : d.lowered.commentEnd.toList = d.commentEnd.toList.map Char.toLower := lowerTextAscii written
  induction s with
  | nil => rfl
  | cons c s ih =>
    rw [List.map_cons, commentLength?, commentLength?, ih ascii.tail, ends, ← List.map_cons,
      readsLowered folded written ascii]

theorem openersInLower (ascii : ∀ p ∈ d.named, Ascii p.2.toList) (folded : d.ignoreCase = true) :
    InLower d.openers := by
  have low {t : String} (ascii : Ascii t.toList) :
      Ascii (d.fold t.toList) ∧ (d.fold t.toList).map Char.toLower = d.fold t.toList := by
    have image : d.fold t.toList = t.toList.map Char.toLower := by
      rw [fold, if_pos folded, lowerAscii ascii]
    rw [image]
    constructor
    · intro c member
      obtain ⟨x, inside, rfl⟩ := List.mem_map.mp member
      exact (asciiLowers (ascii x inside)).ascii
    · rw [List.map_map]
      exact List.map_congr_left fun c _ => Char.toLower_toLower_eq_toLower c
  simp only [named, List.forall_mem_cons] at ascii
  obtain ⟨output, -, conditional, alternative, ending, loop, loopEnding, inclusion, comment, -⟩ := ascii
  simp only [InLower, openers, List.mem_mergeSort, List.map_cons, List.map_nil, List.forall_mem_cons]
  exact ⟨low output, low conditional, low alternative, low ending, low loop, low loopEnding, low inclusion, low comment,
    by simp⟩

end Delimiters

def Reason.lowered : Reason → Reason
  | .unclosedComment closer => .unclosedComment (lowerText closer)
  | .unclosedDirective directive closer => .unclosedDirective directive (lowerText closer)
  | reason => reason

/- The same error at the same place, with the missing delimiter in lower case. -/
def TemplateError.lowered (e : TemplateError) : TemplateError := { e with reason := e.reason.lowered }

namespace Token

/- The same token at the same place, with its value in lower case. -/
def lowered (t : Token) : Token := { t with value := lowerText t.value }

def Piece.lowered (x : Piece) : Piece := { x with value := lowerText x.value }

variable {d : Delimiters} {os : List Opener} {s : List Char}

theorem directiveLowered (folded : d.ignoreCase = true) (shut : Ascii d.variableEnd.toList)
    (ends : Ascii d.commentEnd.toList) (ascii : Ascii s) (o : Opener) :
    directive d.lowered o (s.map Char.toLower) = ((directive d o s).map Piece.lowered).mapError Reason.lowered := by
  have body : Ascii (s.drop o.folded.length) := ascii.sub (List.drop_subset _ _)
  have shorter {t : String} (ascii : Ascii t.toList) : (lowerText t).length = t.length := by
    rw [← String.length_toList, lowerTextAscii ascii, List.length_map, String.length_toList]
  have shutLength : d.lowered.variableEnd.length = d.variableEnd.length := shorter shut
  have endsLength : d.lowered.commentEnd.length = d.commentEnd.length := shorter ends
  have closer : d.lowered.fold d.lowered.variableEnd.toList = d.fold d.variableEnd.toList := by
    rw [← Delimiters.foldLowered folded shut, Delimiters.lowered, lowerTextAscii shut]
  have value (k : Nat) : String.ofList (strip (((s.map Char.toLower).drop o.folded.length).take k)) =
      lowerText (String.ofList (strip ((s.drop o.folded.length).take k))) := by
    have front : Ascii ((s.drop o.folded.length).take k) := body.sub (List.take_subset _ _)
    have inside : Ascii (strip ((s.drop o.folded.length).take k)) := front.sub (stripInside _)
    rw [lowerTextList inside, ← stripLowered front, List.map_take, List.map_drop]
  have closes := Delimiters.closerLowered folded (d.fold d.variableEnd.toList) body
  have commented := Delimiters.commentLowered folded ends body
  rw [List.map_drop] at closes commented
  obtain ⟨kind, delimiter⟩ := o
  cases kind with
  | conditionalElse | conditionalEnd | loopEnd => rfl
  | comment =>
    simp only [directive, commented, endsLength]
    cases d.commentLength? (s.drop delimiter.length) with
    | none => rfl
    | some k => rfl
  | text | output | conditionalStart | loopStart | inclusion | eof =>
    simp only [directive, closer, closes, shutLength, value]
    cases d.closerIndex? (d.fold d.variableEnd.toList) (s.drop delimiter.length) with
    | none => rfl
    | some k => rfl

theorem pieceLowered (folded : d.ignoreCase = true) (inLower : Delimiters.InLower os)
    (shut : Ascii d.variableEnd.toList) (ends : Ascii d.commentEnd.toList) {c : Char} {rest : List Char}
    (ascii : Ascii (c :: rest)) :
    piece d.lowered os c.toLower (rest.map Char.toLower) =
      ((piece d os c rest).map Piece.lowered).mapError Reason.lowered := by
  rw [piece_eq, piece_eq, ← List.map_cons, Delimiters.openerLowered folded ascii]
  cases d.opener? os (c :: rest) with
  | some o => exact directiveLowered folded shut ends ascii o
  | none =>
    have front : Ascii ((c :: rest).take (d.textLength os rest + 1)) := ascii.sub (List.take_subset _ _)
    simp only [Delimiters.textLowered folded inLower ascii.tail, ← List.map_take, ← lowerTextList front]
    rfl

/- What a scan gives, in lower case. -/
def scanLowered (result : Except TemplateError (List Token)) : Except TemplateError (List Token) :=
  (result.map (List.map lowered)).mapError TemplateError.lowered

theorem stepLowered {p : Position} {c : Char} {rest : List Char} {x : Piece} (ascii : Ascii (c :: rest))
    (taken : piece d os c rest = .ok x)
    (made : piece d.lowered os c.toLower (rest.map Char.toLower) = .ok x.lowered)
    (others : scanFrom d.lowered os (p.advanceOver ((c :: rest).take x.length))
        ((rest.drop (x.length - 1)).map Char.toLower) =
      scanLowered (scanFrom d os (p.advanceOver ((c :: rest).take x.length)) (rest.drop (x.length - 1)))) :
    scanFrom d.lowered os p ((c :: rest).map Char.toLower) = scanLowered (scanFrom d os p (c :: rest)) := by
  have moved : p.advanceOver ((c.toLower :: rest.map Char.toLower).take x.length) =
      p.advanceOver ((c :: rest).take x.length) := by
    rw [← List.map_cons, ← List.map_take, Position.advanceLowered (ascii.sub (List.take_subset _ _))]
  rw [List.map_cons, scanFrom, scanFrom, made, taken]
  simp only [Piece.lowered, moved, ← List.map_drop, others]
  cases scanFrom d os (p.advanceOver ((c :: rest).take x.length)) (rest.drop (x.length - 1)) with
  | error e => rfl
  | ok ts => by_cases comment : x.kind = .comment <;> simp only [comment, if_true, if_false] <;> rfl

/- Scanning in lower case is scanning, and then lower case. -/
theorem scannedLowered (folded : d.ignoreCase = true) (inLower : Delimiters.InLower os)
    (shut : Ascii d.variableEnd.toList) (ends : Ascii d.commentEnd.toList) (p : Position) (ascii : Ascii s) :
    scanFrom d.lowered os p (s.map Char.toLower) = scanLowered (scanFrom d os p s) := by
  induction p, s using scanFrom.induct d os with
  | case1 p =>
    rw [List.map_nil, scanFrom, scanFrom]
    rfl
  | case2 p c rest reason failed =>
    rw [List.map_cons, scanFrom, scanFrom, pieceLowered folded inLower shut ends ascii, failed]
    rfl
  | case3 p c rest x taken next e failed ih | case4 p c rest x taken next ts scanned comment ih
  | case5 p c rest x taken next ts scanned solid ih =>
    have made := pieceLowered folded inLower shut ends ascii
    rw [taken] at made
    exact stepLowered ascii taken made (ih (ascii.tail.sub (List.drop_subset _ _)))

/- Whatever a scan reports, it reports it at a place. -/
theorem scanLocates {p : Position} {e : TemplateError} (failed : scanFrom d os p s = .error e) :
    ∃ q reason, e = .located q reason := by
  induction p, s using scanFrom.induct d os with
  | case1 p =>
    rw [scanFrom] at failed
    cases failed
  | case2 p c rest reason stopped =>
    rw [scanFrom, stopped] at failed
    exact ⟨p, reason, (Except.error.inj failed).symm⟩
  | case3 p c rest x taken next e' stopped ih =>
    rw [scanFrom, taken] at failed
    simp only [next] at stopped ih
    simp only [stopped] at failed
    exact ih (stopped.trans failed)
  | case4 p c rest x taken next ts scanned comment ih | case5 p c rest x taken next ts scanned solid ih =>
    rw [scanFrom, taken] at failed
    simp only [next] at scanned
    simp only [scanned] at failed
    split at failed <;> cases failed

/- For delimiters and texts of ASCII, to ignore case is to put both into lower case. The same tokens stand at the same
places, with the same values but for their case; and if something is not closed, it is the same thing at the same
place. -/
theorem scansLowered (folded : d.ignoreCase = true) (written : ∀ p ∈ d.named, Ascii p.2.toList) {source : String}
    (ascii : Ascii source.toList) :
    (∃ tokens, scan d source = .ok tokens ∧ scan d.lowered (lowerText source) = .ok (tokens.map lowered)) ∨
    ∃ p reason, scan d source = .error (.located p reason) ∧
      scan d.lowered (lowerText source) = .error (.located p reason.lowered) := by
  have same := scannedLowered folded (Delimiters.openersInLower written folded)
    (written ("variable_end", _) (by simp [Delimiters.named])) (written ("comment_end", _) (by simp [Delimiters.named]))
    .start ascii
  rw [← lowerTextAscii ascii, ← Delimiters.openersLowered folded] at same
  rw [scan, scan, same, Delimiters.openersLowered folded]
  cases scanned : scanFrom d d.openers .start source.toList with
  | ok tokens => exact .inl ⟨tokens, rfl, rfl⟩
  | error e =>
    obtain ⟨p, reason, rfl⟩ := scanLocates scanned
    exact .inr ⟨p, reason, rfl, rfl⟩

/- Both spellings of a delimiter, and an opener that a longer one wins over. -/
def shouting : Delimiters := { Delimiters.standard with ignoreCase := true, conditionalEnd := "$\x7b/IF\x7d" }

theorem scansLoweredMixed :
    (shouting.ignoreCase = true ∧ (∀ p ∈ shouting.named, Ascii p.2.toList) ∧
      Ascii "$\x7b#If A\x7d$\x7bElse\x7dB$\x7b/if\x7d".toList) ∧
    ∃ tokens, scan shouting "$\x7b#If A\x7d$\x7bElse\x7dB$\x7b/if\x7d" = .ok tokens ∧
      scan shouting.lowered (lowerText "$\x7b#If A\x7d$\x7bElse\x7dB$\x7b/if\x7d") = .ok (tokens.map lowered) := by
  have folded : shouting.ignoreCase = true := rfl
  have written : ∀ p ∈ shouting.named, Ascii p.2.toList := by decide
  have ascii : Ascii "$\x7b#If A\x7d$\x7bElse\x7dB$\x7b/if\x7d".toList := by decide
  have scanned : scan shouting "$\x7b#If A\x7d$\x7bElse\x7dB$\x7b/if\x7d" = .ok [
      ⟨.conditionalStart, "A", ⟨1, 1, 0⟩, 8⟩, ⟨.conditionalElse, "", ⟨1, 9, 8⟩, 15⟩, ⟨.text, "B", ⟨1, 16, 15⟩, 16⟩,
      ⟨.conditionalEnd, "", ⟨1, 17, 16⟩, 22⟩, ⟨.eof, "", ⟨1, 23, 22⟩, 22⟩] := by cbv
  refine ⟨⟨folded, written, ascii⟩, ?_⟩
  obtain found | ⟨p, reason, failed, -⟩ := scansLowered folded written ascii
  · exact found
  · rw [scanned] at failed
    cases failed

end Token
end Stencil
