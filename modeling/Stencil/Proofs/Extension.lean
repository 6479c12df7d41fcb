import Stencil.Proofs.Tiling
import Stencil.Proofs.Directives

/-! A template with more text behind it. What was cut from a template that ends with a directive is cut in
the same way whatever follows, unless the way to the end of a directive passed a quote without a partner and
the partner comes later: then that directive takes in more of the text. -/
namespace Stencil

open Stencil.Expr Text Token

/- On the way to the closing delimiter a quote is passed that has no partner in `rest`, all that stands
behind it. -/
inductive Passes (closer : List Char) : List Char → Char → List Char → Prop where
  | here {quote rest} (later : ¬ closer <+: quote :: rest) (sign : isQuote quote = true)
      (alone : closingQuote? quote rest = none) : Passes closer (quote :: rest) quote rest
  | quoted {c s n quote rest} (later : ¬ closer <+: c :: s) (sign : isQuote c = true)
      (partner : closingQuote? c s = some n) (others : Passes closer (s.drop (n + 1)) quote rest) :
      Passes closer (c :: s) quote rest
  | plain {c s quote rest} (later : ¬ closer <+: c :: s) (single : isQuote c = true → closingQuote? c s = none)
      (others : Passes closer s quote rest) : Passes closer (c :: s) quote rest

/- No quote that was passed finds its partner in `behind`. -/
def Settled (closer s behind : List Char) : Prop :=
  ∀ quote rest, Passes closer s quote rest → closingQuote? quote (rest ++ behind) = none

/- A partner that only comes with more text stands behind the old one. -/
theorem closingBehind {quote : Char} {s behind : List Char} {m : Nat} (alone : closingQuote? quote s = none)
    (closed : closingQuote? quote (s ++ behind) = some m) : s.length ≤ m := by
  fun_induction closingQuote? quote s generalizing m with
  | case1 => simp
  | case2 c rest ih =>
    simp only [List.cons_append, closingQuote?, Option.map_eq_some_iff] at closed
    obtain ⟨k, inner, rfl⟩ := closed
    have := ih (by simpa using alone) inner
    simp only [List.length_cons]
    omega
  | case3 => simp at alone
  | case4 c rest plain other ih =>
    by_cases last : c = '\\' ∧ rest = []
    · obtain ⟨rfl, rfl⟩ := last
      cases behind with
      | nil => simp [closingQuote?, other] at closed
      | cons d behind =>
        simp only [List.cons_append, List.nil_append, closingQuote?, Option.map_eq_some_iff] at closed
        obtain ⟨k, -, rfl⟩ := closed
        simp
    · have step : closingQuote? quote (c :: (rest ++ behind)) = (closingQuote? quote (rest ++ behind)).map (· + 1) := by
        rw [closingQuote?, if_neg other]
        rintro d more rfl whole
        cases rest with
        | nil => exact last ⟨rfl, rfl⟩
        | cons e rest => exact plain e rest rfl rfl
      rw [List.cons_append, step] at closed
      obtain ⟨k, inner, rfl⟩ := Option.map_eq_some_iff.mp closed
      have := ih (by simpa using alone) inner
      simp only [List.length_cons]
      omega

variable {s behind : List Char}

theorem braceAhead {c : Char} {t : List Char} : ['\x7d'] <+: c :: t ↔ c = '\x7d' := by
  rw [List.cons_prefix_cons, eq_comm]
  simp

/- A directive whose quotes are settled ends where it ended. -/
theorem shutsKept {k : Nat} (shuts : Shuts ['\x7d'] s k) (settled : Settled ['\x7d'] s behind) :
    Shuts ['\x7d'] (s ++ behind) k := by
  induction shuts with
  | here stands => exact .here (stands.trans (List.prefix_append _ _))
  | @quoted c s n k later sign partner _ ih =>
    have fits : n + 1 ≤ s.length := closingFits partner
    have others := ih fun quote rest passes => settled quote rest (.quoted later sign partner passes)
    rw [← List.drop_append_of_le_length fits] at others
    exact .quoted (by rwa [braceAhead] at later ⊢) sign (closingAppend (quoteSign sign).2 partner behind) others
  | @plain c s k later single _ ih =>
    have others := ih fun quote rest passes => settled quote rest (.plain later single passes)
    have alone (sign : isQuote c = true) : closingQuote? c (s ++ behind) = none :=
      settled c s (.here later sign (single sign))
    exact .plain (by rwa [braceAhead] at later ⊢) alone others

/- With the partner of a quote that was passed, a directive ends behind the old text. -/
theorem shutsBeyond {quote : Char} {rest : List Char} {k m : Nat} (passes : Passes ['\x7d'] s quote rest)
    (closed : closingQuote? quote (rest ++ behind) = some m) (shuts : Shuts ['\x7d'] (s ++ behind) k) :
    s.length < k := by
  induction passes generalizing k with
  | here later sign alone =>
    have far := closingBehind alone closed
    rw [List.cons_append] at shuts
    cases shuts with
    | here stands => exact absurd (braceAhead.mpr (braceAhead.mp stands)) later
    | quoted _ _ partner _ =>
      obtain rfl := Option.some.inj (closed.symm.trans partner)
      simp only [List.length_cons]
      omega
    | plain _ single _ => simp [single sign] at closed
  | @quoted c s n quote rest later sign partner _ ih =>
    have fits : n + 1 ≤ s.length := closingFits partner
    have same := closingAppend (quoteSign sign).2 partner behind
    rw [List.cons_append] at shuts
    cases shuts with
    | here stands => exact absurd (braceAhead.mpr (braceAhead.mp stands)) later
    | quoted _ _ partner' others =>
      obtain rfl := Option.some.inj (same.symm.trans partner')
      rw [List.drop_append_of_le_length fits] at others
      have := ih closed others
      simp only [List.length_cons, List.length_drop] at this ⊢
      omega
    | plain _ single _ => simp [single sign] at same
  | @plain c s quote rest later single _ ih =>
    rw [List.cons_append] at shuts
    cases shuts with
    | here stands => exact absurd (braceAhead.mpr (braceAhead.mp stands)) later
    | quoted _ sign partner _ =>
      have := closingBehind (single sign) partner
      simp only [List.length_cons]
      omega
    | plain _ _ others =>
      have := ih closed others
      simp only [List.length_cons]
      omega

namespace Delimiters

variable {delimiter : List Char}

/- Whether a delimiter starts is seen before the first closing brace, which stands at the end of it if it
stands in it at all. -/
theorem startsKept (brace : '\x7d' ∈ s) (inner : '\x7d' ∉ delimiter.dropLast) :
    Starts delimiter (s ++ behind) ↔ Starts delimiter s := by
  have whole : delimiter <+: s ++ behind ↔ delimiter <+: s := by
    constructor
    · intro stands
      obtain inside | ⟨more, rfl⟩ := List.prefix_or_prefix_of_prefix stands (List.prefix_append s behind)
      · exact inside
      · by_cases ends : more = []
        · simp [ends]
        · rw [List.dropLast_append_of_ne_nil ends] at inner
          exact absurd (List.mem_append_left _ brace) inner
    · intro stands
      exact stands.trans (List.prefix_append s behind)
  unfold Starts
  rw [whole]
  apply and_congr_right
  rintro ⟨more, rfl⟩
  cases more with
  | nil =>
    rw [List.append_nil] at brace
    have solid : delimiter ≠ [] := List.ne_nil_of_mem brace
    rw [← List.dropLast_append_getLast solid, List.mem_append, List.mem_singleton] at brace
    have last : delimiter.getLast? = some '\x7d' := by
      rw [List.getLast?_eq_some_getLast solid, ← brace.resolve_left inner]
    have sign : isWord '\x7d' = false := Plain.markNoWord (by decide)
    simp [last, sign]
  | cons c more => simp

theorem openerKept (behind : List Char) (brace : '\x7d' ∈ s) :
    standard.opener? standard.openers (s ++ behind) = standard.opener? standard.openers s := by
  have inner : ∀ o ∈ standard.openers, '\x7d' ∉ o.folded.dropLast := by
    rw [standardOpeners]
    decide
  have same : ∀ o ∈ standard.openers, standard.opensAt o (s ++ behind) = standard.opensAt o s := by
    intro o member
    rw [Bool.eq_iff_iff, opensStarts rfl, opensStarts rfl]
    exact startsKept brace (inner o member)
  exact List.find?_congr same

theorem interruptsKept (behind : List Char) (brace : '\x7d' ∈ s) :
    standard.interrupts standard.openers (s ++ behind) = standard.interrupts standard.openers s := by
  rw [Bool.eq_iff_iff, interruptsOpens rfl, interruptsOpens rfl, ← openerUnopened rfl, ← openerUnopened rfl,
    openerKept behind brace]

/- A closing brace stands at the end, if anything does. -/
def Shut (s : List Char) : Prop := ∀ t, t <:+ s → t ≠ [] → '\x7d' ∈ t

theorem Shut.suffix {t : List Char} (shut : Shut s) (ends : t <:+ s) : Shut t :=
  fun u inside => shut u (inside.trans ends)

theorem Shut.brace {c : Char} {rest : List Char} (shut : Shut (c :: rest)) : '\x7d' ∈ c :: rest :=
  shut _ List.suffix_rfl (List.cons_ne_nil c rest)

theorem textKept (shut : Shut s) (stops : standard.textLength standard.openers s < s.length) :
    standard.textLength standard.openers (s ++ behind) = standard.textLength standard.openers s := by
  induction s with
  | nil => simp at stops
  | cons c rest ih =>
    have same := interruptsKept behind shut.brace
    rw [List.cons_append] at same ⊢
    rw [textLength, textLength, same]
    rw [textLength] at stops
    split
    · rfl
    · rename_i goes
      rw [if_neg goes] at stops
      rw [ih (shut.suffix (List.suffix_cons c rest)) (by simpa using stops)]

theorem commentKept {k : Nat} (found : standard.commentLength? s = some k) :
    standard.commentLength? (s ++ behind) = some k := by
  induction s generalizing k with
  | nil => cases found
  | cons c rest ih =>
    obtain ⟨stands, -⟩ := commentFirst rfl found
    have fits := stands.length_le
    rw [List.length_drop] at fits
    have same : standard.readsAt standard.commentEnd.toList (c :: rest ++ behind) =
        standard.readsAt standard.commentEnd.toList (c :: rest) := by
      rw [Bool.eq_iff_iff, readsAt_eq_isPrefixOf rfl, readsAt_eq_isPrefixOf rfl, List.isPrefixOf_iff_prefix,
        List.isPrefixOf_iff_prefix]
      constructor
      · exact fun reads => List.prefix_of_prefix_length_le reads (List.prefix_append _ _) (by omega)
      · exact fun reads => reads.trans (List.prefix_append _ _)
    rw [List.cons_append] at same ⊢
    rw [commentLength?, same]
    rw [commentLength?] at found
    split
    · rename_i here
      rwa [if_pos here] at found
    · rename_i later
      rw [if_neg later] at found
      obtain ⟨k, closes, rfl⟩ := Option.map_eq_some_iff.mp found
      rw [ih closes]
      rfl

/- Of two delimiters that are taken at one place, none is longer. -/
theorem takenLength {d : Delimiters} {kind kind' : TokenKind} {delimiter delimiter' : String}
    (taken : d.Taken kind delimiter s) (taken' : d.Taken kind' delimiter' s) :
    delimiter.length = delimiter'.length :=
  le_antisymm (taken'.longest _ taken.opens taken.starts) (taken.longest _ taken'.opens taken'.starts)

end Delimiters

namespace Token

open Delimiters

/- What is read for a directive with a body. -/
theorem bodiedMade {o : Opener} {x : Piece} (bodied : o.kind.Bodied) :
    directive standard o s = .ok x ↔ ∃ k, Shuts ['\x7d'] (s.drop o.folded.length) k ∧
      x = ⟨o.kind, String.ofList (strip ((s.drop o.folded.length).take k)), o.folded.length + k + 1⟩ := by
  have closer : standard.fold standard.variableEnd.toList = ['\x7d'] := by decide
  have long : standard.variableEnd.length = 1 := by decide
  simp only [← closerShuts (d := standard) rfl (List.cons_ne_nil '\x7d' [])]
  cases closes : standard.closerIndex? ['\x7d'] (s.drop o.folded.length) with
  | none =>
    have failed : directive standard o s =
        .error (.unclosedDirective (directiveWord o.kind) standard.variableEnd) := by
      rcases bodied with kind | kind | kind | kind <;> simp only [directive, kind, closer, closes]
    simp [failed]
  | some k =>
    have made : directive standard o s = .ok ⟨o.kind, String.ofList (strip ((s.drop o.folded.length).take k)),
        o.folded.length + k + 1⟩ := by
      rcases bodied with kind | kind | kind | kind <;> simp only [directive, kind, closer, closes, long]
    simp [made, eq_comm]

/- A quote that the search for the end of a directive passed as it would any other character. -/
def Strays (text : List Char) (t : Token) (quote : Char) (rest : List Char) : Prop :=
  t.kind.Bodied ∧ ∃ delimiter, standard.Taken t.kind delimiter (text.drop t.position.offset) ∧
    Passes ['\x7d'] ((text.drop t.position.offset).drop delimiter.length) quote rest

variable {c : Char} {rest : List Char} {x : Piece}

/- The step at the front of a text is taken again where more stands behind the text: no text goes on beyond its
end, and no quote in it waits for a partner. -/
theorem pieceKept (behind : List Char) (made : piece standard standard.openers c rest = .ok x)
    (shut : Shut (c :: rest)) (short : x.kind = .text → x.length ≤ rest.length)
    (settled : ∀ delimiter, x.kind.Bodied → standard.Taken x.kind delimiter (c :: rest) →
      Settled ['\x7d'] ((c :: rest).drop delimiter.length) behind) :
    piece standard standard.openers c (rest ++ behind) = .ok x := by
  have same := openerKept behind shut.brace
  rw [List.cons_append] at same
  rw [piece_eq] at made ⊢
  rw [same]
  cases found : standard.opener? standard.openers (c :: rest) with
  | none =>
    simp only [found] at made ⊢
    cases made
    have stops : standard.textLength standard.openers rest < rest.length := short rfl
    have fits : standard.textLength standard.openers rest + 1 ≤ (c :: rest).length := by
      simp only [List.length_cons]
      omega
    rw [textKept (shut.suffix (List.suffix_cons c rest)) stops, ← List.cons_append,
      List.take_append_of_le_length fits]
  | some o =>
    simp only [found] at made ⊢
    obtain ⟨delimiter, folded, taken⟩ := openerTaken rfl found
    have inside : o.folded.length ≤ (c :: rest).length := folded ▸ taken.starts.1.length_le
    rw [← List.cons_append]
    obtain bare | bodied | comment := openedKind taken.opens
    · rcases bare with bare | bare | bare <;> simpa only [directive, bare] using made
    · obtain ⟨k, shuts, rfl⟩ := (bodiedMade bodied).mp made
      have quotes := settled delimiter bodied taken
      rw [← String.length_toList, ← folded] at quotes
      have fits := (shutsStands shuts).length_le
      rw [List.length_drop, List.length_singleton] at fits
      rw [bodiedMade bodied, List.drop_append_of_le_length inside]
      refine ⟨k, shutsKept shuts quotes, ?_⟩
      rw [List.take_append_of_le_length (by omega)]
    · simp only [directive, comment, List.drop_append_of_le_length inside] at made ⊢
      split at made
      · rename_i closes
        rw [commentKept closes]
        exact made
      · cases made

/- With the partner of a quote that was passed, the step takes more than the old text. -/
theorem pieceBeyond {delimiter : String} {quote : Char} {tail : List Char} {m : Nat} {y : Piece}
    (made : piece standard standard.openers c rest = .ok x) (shut : Shut (c :: rest)) (bodied : x.kind.Bodied)
    (taken : standard.Taken x.kind delimiter (c :: rest))
    (passes : Passes ['\x7d'] ((c :: rest).drop delimiter.length) quote tail)
    (closed : closingQuote? quote (tail ++ behind) = some m)
    (followed : piece standard standard.openers c (rest ++ behind) = .ok y) :
    y.kind = x.kind ∧ (c :: rest).length < y.length := by
  have same := openerKept behind shut.brace
  rw [List.cons_append] at same
  rw [piece_eq] at made followed
  rw [same] at followed
  cases found : standard.opener? standard.openers (c :: rest) with
  | none =>
    simp only [found] at made
    cases made
    simp [TokenKind.Bodied] at bodied
  | some o =>
    simp only [found] at made followed
    obtain ⟨delimiter', folded, taken'⟩ := openerTaken rfl found
    have inside : o.folded.length ≤ (c :: rest).length := folded ▸ taken'.starts.1.length_le
    have long : delimiter.length = o.folded.length := by
      rw [takenLength taken taken', folded, String.length_toList]
    rw [directiveKind made] at bodied ⊢
    rw [← List.cons_append, bodiedMade bodied, List.drop_append_of_le_length inside] at followed
    obtain ⟨k, shuts, rfl⟩ := followed
    have beyond := shutsBeyond (long ▸ passes) closed shuts
    rw [List.length_drop] at beyond
    exact ⟨rfl, by simp only; omega⟩

variable {text : List Char}

/- The scanner of the longer text takes the same step, and comes to the same place. -/
theorem stepKept {p : Position} {us : List Token} (here : c :: rest = text.drop p.offset)
    (made : piece standard standard.openers c rest = .ok x)
    (kept : piece standard standard.openers c (rest ++ behind) = .ok x)
    (followed : scanFrom standard standard.openers p (c :: rest ++ behind) = .ok us) :
    ∃ vs, scanFrom standard standard.openers (p.advanceOver ((c :: rest).take x.length))
        (rest.drop (x.length - 1) ++ behind) = .ok vs ∧
      us = if x.kind = .comment then vs else ⟨x.kind, x.value, p, p.offset + x.length⟩ :: vs := by
  rw [List.cons_append] at followed
  obtain ⟨y, vs, made', others, rfl⟩ := scanStep followed
  obtain rfl : x = y := Except.ok.inj (kept.symm.trans made')
  obtain ⟨-, long, inside, -, -⟩ := stepTaken rfl (by decide) here made
  have whole := congrArg List.length here
  rw [List.length_drop] at whole
  have fits : x.length ≤ (c :: rest).length := by omega
  rw [List.length_cons] at fits
  rw [← List.cons_append, List.take_append_of_le_length (by simpa using fits),
    List.drop_append_of_le_length (by omega)] at others
  exact ⟨vs, others, rfl⟩

/- The first token of the longer text then stops behind the old one. -/
theorem stepBeyond {p : Position} {us : List Token} {quote : Char} {tail : List Char} {m : Nat}
    (here : c :: rest = text.drop p.offset) (made : piece standard standard.openers c rest = .ok x)
    (shut : Shut (c :: rest)) (strays : Strays text ⟨x.kind, x.value, p, p.offset + x.length⟩ quote tail)
    (closed : closingQuote? quote (tail ++ behind) = some m)
    (followed : scanFrom standard standard.openers p (c :: rest ++ behind) = .ok us) :
    ∃ u vs, us = u :: vs ∧ p.offset + x.length < u.stop := by
  obtain ⟨bodied, delimiter, taken, passes⟩ := strays
  simp only [← here] at taken passes
  rw [List.cons_append] at followed
  obtain ⟨y, vs, taking, -, rfl⟩ := scanStep followed
  obtain ⟨kind, beyond⟩ := pieceBeyond made shut bodied taken passes closed taking
  obtain ⟨-, -, inside, -, -⟩ := stepTaken rfl (by decide) here made
  have whole := congrArg List.length here
  rw [List.length_drop] at whole
  have solid : y.kind ≠ .comment := by
    intro comment
    simp [← kind, comment, TokenKind.Bodied] at bodied
  refine ⟨_, vs, if_neg solid, ?_⟩
  simp only
  omega

/- As long as the quotes that were passed are settled the two scanners go side by side; the first directive
that gets the partner of such a quote ends elsewhere. -/
theorem scannedKept {p : Position} {ts us : List Token} (here : s = text.drop p.offset)
    (inside : p.offset ≤ text.length) (shut : Shut s)
    (scanned : scanFrom standard standard.openers p s = .ok ts)
    (short : ∀ t ∈ ts, t.kind = .text → t.stop < text.length)
    (followed : scanFrom standard standard.openers p (s ++ behind) = .ok us) :
    ts.dropLast <+: us ↔ ∀ t ∈ ts, ∀ quote rest, t.Strays text quote rest →
      closingQuote? quote (rest ++ behind) = none := by
  fun_induction scanFrom standard standard.openers p s generalizing ts us with
  | case1 p =>
    cases scanned
    simp [Strays, TokenKind.Bodied]
  | case2 => cases scanned
  | case3 => cases scanned
  | case4 p c rest x made next ts' others comment =>
    rename_i ih
    cases scanned
    obtain ⟨-, -, stops, moved, next⟩ := stepTaken rfl (by decide) here made
    rw [← moved] at next stops
    have plain : ¬ x.kind.Bodied := by simp [comment, TokenKind.Bodied]
    have kept := pieceKept behind made shut (by simp [comment]) fun _ bodied => absurd bodied plain
    obtain ⟨vs, further, rfl⟩ := stepKept here made kept followed
    rw [if_pos comment]
    exact ih next stops (shut.suffix ((List.drop_suffix _ _).trans (List.suffix_cons c rest))) others short further
  | case5 p c rest x made next ts' others solid =>
    rename_i ih
    cases scanned
    have whole := congrArg List.length here
    rw [List.length_cons, List.length_drop] at whole
    obtain ⟨-, -, stops, moved, next⟩ := stepTaken rfl (by decide) here made
    rw [← moved] at next stops
    have more : ts' ≠ [] := by
      have answers := scannedTiles (d := standard) rfl (by decide) next stops
      rw [others] at answers
      obtain ⟨tiles, last, rfl, -⟩ := answers
      simp
    rw [List.dropLast_cons_of_ne_nil more]
    by_cases settled : ∀ quote tail, Strays text ⟨x.kind, x.value, p, p.offset + x.length⟩ quote tail →
        closingQuote? quote (tail ++ behind) = none
    · have inner : x.kind = .text → x.length ≤ rest.length := by
        intro kind
        have := short _ List.mem_cons_self kind
        simp only at this
        omega
      have kept := pieceKept behind made shut inner fun delimiter bodied taken quote tail passes =>
        settled quote tail ⟨bodied, delimiter, here ▸ taken, here ▸ passes⟩
      obtain ⟨vs, further, rfl⟩ := stepKept here made kept followed
      have later := ih next stops (shut.suffix ((List.drop_suffix _ _).trans (List.suffix_cons c rest))) others
        (fun t member => short t (List.mem_cons_of_mem _ member)) further
      rw [if_neg solid, List.cons_prefix_cons, List.forall_mem_cons, later]
      exact and_congr_left fun _ => ⟨fun _ => settled, fun _ => rfl⟩
    · push Not at settled
      obtain ⟨quote, tail, strays, found⟩ := settled
      obtain ⟨m, closed⟩ := Option.ne_none_iff_exists'.mp found
      obtain ⟨u, vs, rfl, beyond⟩ := stepBeyond here made shut strays closed followed
      constructor
      · intro same
        have ends := congrArg Token.stop (List.cons_prefix_cons.mp same).1
        simp only at ends
        omega
      · intro all
        exact absurd (all _ List.mem_cons_self quote tail strays) found

theorem lastStands {closer : List Char} {k : Nat} (stands : closer <+: s.drop k)
    (whole : k + closer.length = s.length) (brace : closer.getLast? = some '\x7d') :
    s.getLast? = some '\x7d' := by
  have same : closer = s.drop k := stands.eq_of_length (by rw [List.length_drop]; omega)
  rw [same, List.getLast?_drop] at brace
  split at brace
  · cases brace
  · exact brace

/- Every directive ends with a brace. -/
theorem cutLast {kind : TokenKind} {value : String} (cut : Cut standard s kind value s.length)
    (directive : kind ≠ .text) : s.getLast? = some '\x7d' := by
  generalize whole : s.length = n at cut
  cases cut with
  | text => exact absurd rfl directive
  | marker bare taken =>
    have ends : ∀ p ∈ standard.opening, p.1 = .conditionalElse ∨ p.1 = .conditionalEnd ∨ p.1 = .loopEnd →
        p.2.toList.getLast? = some '\x7d' := by decide
    have stands := taken.starts.1
    exact lastStands (k := 0) stands (by rw [Nat.zero_add, String.length_toList, whole]) (ends _ taken.opens bare)
  | directive _ _ shuts =>
    have stands := shutsStands shuts
    rw [List.drop_drop] at stands
    exact lastStands stands (by rw [whole, String.length_toList]) (by decide)
  | comment _ ends =>
    have stands := ends.1
    rw [List.drop_drop] at stands
    exact lastStands stands (by rw [whole, String.length_toList]) (by decide)

theorem lastShut (last : s.getLast? = some '\x7d') : Shut s := by
  intro t ends solid
  have same := ends.getLast solid
  rw [List.getLast?_eq_some_getLast (ends.ne_nil solid), Option.some.injEq, ← same] at last
  exact last ▸ List.getLast_mem solid

/- A directive that ends a template, and all that was cut off before it, stays what it was whatever follows
the template, just as long as no quote that was passed without a partner gets one. -/
theorem directivesKept {a b : String} {ts us : List Token} {t : Token} (scanned : scan standard a = .ok ts)
    (last : ts.dropLast.getLast? = some t) (directive : t.kind ≠ .text) (ends : t.stop = a.length)
    (followed : scan standard (a ++ b) = .ok us) :
    ts.dropLast <+: us ↔ ∀ u ∈ ts, ∀ quote rest, u.Strays a.toList quote rest →
      closingQuote? quote (rest ++ b.toList) = none := by
  have answers : Answers standard a.toList 0 (scan standard a) :=
    scannedTiles (p := .start) rfl (by decide) rfl (Nat.zero_le _)
  rw [scanned] at answers
  obtain ⟨tiles, final, rfl, -, tiled⟩ := answers
  rw [List.dropLast_concat] at last
  obtain ⟨before, kept⟩ := List.getLast?_eq_some_iff.mp last
  obtain ⟨-, long, -, cut⟩ := (tilesBounds tiled).2 t (List.mem_of_mem_filter (List.mem_of_getLast? last))
  have shut : Shut a.toList := by
    have whole : t.stop - t.position.offset = (a.toList.drop t.position.offset).length := by
      rw [List.length_drop, ends, String.length_toList]
    have brace := cutLast (whole ▸ cut) directive
    rw [List.getLast?_drop] at brace
    split at brace
    · cases brace
    · exact lastShut brace
  have short : ∀ u ∈ tiles.filter (·.kind ≠ .comment) ++ [⟨.eof, "", final, a.toList.length⟩],
      u.kind = .text → u.stop < a.toList.length := by
    intro u member plain
    have ordered := (tilesOrdered tiled).filter (·.kind ≠ .comment)
    rw [kept, List.pairwise_append] at ordered
    rw [kept, List.mem_append, List.mem_append] at member
    obtain (earlier | same) | final := member
    · have := ordered.2.2 u earlier t (by simp)
      rw [String.length_toList]
      omega
    · rw [List.mem_singleton.mp same] at plain
      exact absurd plain directive
    · rw [List.mem_singleton.mp final] at plain
      cases plain
  have more : scanFrom standard standard.openers .start (a.toList ++ b.toList) = .ok us := by
    rw [← String.toList_append]
    exact followed
  exact scannedKept (p := .start) rfl (Nat.zero_le _) shut scanned short more

/- An apostrophe in a directive, alone in the template and in what follows. -/
def sampleApostrophe : List Token := [⟨.output, "it's", .start, 7⟩, ⟨.eof, "", ⟨1, 8, 7⟩, 7⟩]

def sampleFollowed : List Token := [⟨.output, "it's", .start, 7⟩, ⟨.text, " and ", ⟨1, 8, 7⟩, 12⟩,
  ⟨.output, "x", ⟨1, 13, 12⟩, 16⟩, ⟨.eof, "", ⟨1, 17, 16⟩, 16⟩]

theorem apostropheScanned : scan standard "$\x7bit's\x7d" = .ok sampleApostrophe := by cbv

theorem apostropheFollowed : scan standard ("$\x7bit's\x7d" ++ " and $\x7bx\x7d") = .ok sampleFollowed := by cbv

theorem directivesKeptApostrophe : scan standard "$\x7bit's\x7d" = .ok sampleApostrophe ∧
    sampleApostrophe.dropLast.getLast? = some ⟨.output, "it's", .start, 7⟩ ∧ TokenKind.output ≠ .text ∧
    7 = "$\x7bit's\x7d".length ∧ scan standard ("$\x7bit's\x7d" ++ " and $\x7bx\x7d") = .ok sampleFollowed ∧
    sampleApostrophe.dropLast <+: sampleFollowed ∧
    ∀ u ∈ sampleApostrophe, ∀ quote rest, u.Strays "$\x7bit's\x7d".toList quote rest →
      closingQuote? quote (rest ++ " and $\x7bx\x7d".toList) = none := by
  have last : sampleApostrophe.dropLast.getLast? = some ⟨.output, "it's", .start, 7⟩ := rfl
  have begins : sampleApostrophe.dropLast <+: sampleFollowed := by decide
  have long : 7 = "$\x7bit's\x7d".length := by decide
  exact ⟨apostropheScanned, last, by decide, long, apostropheFollowed, begins,
    (directivesKept apostropheScanned last (by decide) long apostropheFollowed).mp begins⟩

def sampleLone : List Token := [⟨.output, "a'", .start, 5⟩, ⟨.eof, "", ⟨1, 6, 5⟩, 5⟩]

def samplePaired : List Token := [⟨.output, "a'\x7d'", .start, 7⟩, ⟨.eof, "", ⟨1, 8, 7⟩, 7⟩]

theorem loneScanned : scan standard "$\x7ba'\x7d" = .ok sampleLone := by cbv

theorem pairedScanned : scan standard ("$\x7ba'\x7d" ++ "'\x7d") = .ok samplePaired := by cbv

/- The partner of an apostrophe may stand in what follows. -/
theorem lateQuoteMoves : ¬ ∀ (a b : String) (ts us : List Token) (t : Token), scan standard a = .ok ts →
    ts.dropLast.getLast? = some t → t.kind ≠ .text → t.stop = a.length → scan standard (a ++ b) = .ok us →
    ts.dropLast <+: us := by
  intro kept
  have begins := kept _ _ _ _ _ loneScanned rfl (by decide) (by decide) pairedScanned
  exact absurd begins (by decide)

end Token
end Stencil
