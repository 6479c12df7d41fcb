import Stencil.Proofs.Tiling

/-! Tokens and the end of the text. Every token begins inside the text and stops before the next one begins. It stops
inside the text too, but for one case: a lower case may have more characters than the text it is of, so the text may end
in less than the closing delimiter that it is taken for. -/
namespace Stencil

namespace Text

/- A text and its lower case, character by character. No character but the capital with a dot becomes two, and nothing
else becomes a small i or a dot above that was not one, but for case. -/
inductive LowersTo : List Char → List Char → Prop where
  | nil : LowersTo [] []
  | dotted {s t} (others : LowersTo s t) : LowersTo ('İ' :: s) ('i' :: '\u0307' :: t)
  | single {c x s t} (other : c ≠ 'İ') (letter : x = 'i' → c = 'i' ∨ c = 'I') (dot : x = '\u0307' → c = '\u0307')
      (others : LowersTo s t) : LowersTo (c :: s) (x :: t)

/- No run of the table leads from outside ASCII to a small i or to a dot above. -/
theorem runsElsewhere : ∀ r ∈ lowerRuns, ∀ n ∈ [(105 : Nat), 775], 128 ≤ ((n : Int) - r.shift).toNat →
    r.covers ((n : Int) - r.shift).toNat = false := by decide +kernel

theorem shiftedElsewhere {c x : Char} (high : 128 ≤ c.toNat) (moved : shifted lowerRuns c = some x) :
    x ≠ 'i' ∧ x ≠ '\u0307' := by
  obtain ⟨r, found, rfl⟩ := Option.map_eq_some_iff.mp moved
  have covers : r.covers c.toNat = true := by simpa using List.find?_some found
  have apart {n : Nat} (target : n ∈ [105, 775]) : Char.ofNat ((c.toNat : Int) + r.shift).toNat ≠ Char.ofNat n := by
    intro same
    have reached := congrArg Char.toNat same
    have some : (Char.ofNat n).toNat = n ∧ 0 < n := by
      simp only [List.mem_cons, List.not_mem_nil, or_false] at target
      rcases target with rfl | rfl <;> decide
    rw [some.1, Char.toNat_ofNat] at reached
    split at reached
    · have back : ((n : Int) - r.shift).toNat = c.toNat := by omega
      have uncovered := runsElsewhere r (List.mem_of_find?_eq_some found) n target (by omega)
      rw [back, covers] at uncovered
      cases uncovered
    · omega
  exact ⟨apart (n := 105) (by simp), apart (n := 775) (by simp)⟩

theorem lowerSingle {c : Char} (other : c ≠ 'İ') : ∃ x, lowerChar c = [x] ∧
    (x = 'i' → c = 'i' ∨ c = 'I') ∧ (x = '\u0307' → c = '\u0307') := by
  rw [lowerChar]
  split
  · rename_i ascii
    have letter : c.toLower = 'i' → c = 'i' ∨ c = 'I' := asciiForall c ascii (by decide +kernel)
    have dot : c.toLower ≠ '\u0307' := asciiForall c ascii (by decide +kernel)
    exact ⟨c.toLower, rfl, letter, fun same => absurd same dot⟩
  · rename_i high
    have single : c.toNat ≠ 304 := fun same => other (Char.toNat_inj.mp same)
    rw [if_neg single]
    cases moved : shifted lowerRuns c with
    | none =>
      refine ⟨c, rfl, ?_, id⟩
      rintro rfl
      exact absurd (by decide) high
    | some x =>
      obtain ⟨letter, dot⟩ := shiftedElsewhere (Nat.not_lt.mp high) moved
      exact ⟨x, rfl, fun same => absurd same letter, fun same => absurd same dot⟩

theorem lowerAfterSteps (before s : List Char) : LowersTo s (lowerAfter before s) := by
  induction s generalizing before with
  | nil => exact .nil
  | cons c s ih =>
    rw [lowerAfter]
    split
    · rename_i sigma
      rw [sigma]
      split <;> exact .single (by decide) (by decide) (by decide) (ih _)
    · by_cases dotted : c = 'İ'
      · rw [dotted]
        exact .dotted (ih _)
      · obtain ⟨x, image, letter, dot⟩ := lowerSingle dotted
        rw [image]
        exact .single dotted letter dot (ih _)

theorem lowerSteps (s : List Char) : LowersTo s (lower s) := lowerAfterSteps [] s

theorem LowersTo.long {s t : List Char} (steps : LowersTo s t) : s.length ≤ t.length := by
  induction steps with
  | nil => exact Nat.le_refl _
  | dotted _ ih =>
    simp only [List.length_cons]
    omega
  | single _ _ _ _ ih => simpa using ih

/- No letter i is followed by a dot above that is a character of its own. -/
def Undotted (s : List Char) : Prop := ∀ c ∈ ['i', 'I'], ¬ [c, '\u0307'] <:+: s

theorem Undotted.tail {c : Char} {s : List Char} (undotted : Undotted (c :: s)) : Undotted s :=
  fun x member inside => undotted x member (inside.trans (List.suffix_cons c s).isInfix)

theorem Undotted.dot {s : List Char} (undotted : Undotted s) : Undotted ('\u0307' :: s) := by
  intro c member inside
  rcases List.infix_cons_iff.mp inside with front | inside
  · have same := (List.cons_prefix_cons.mp front).1
    rw [same] at member
    exact absurd member (by decide)
  · exact undotted c member inside

/- Of the texts with one lower case, those in which no dot stands alone behind an i are the shortest. -/
theorem LowersTo.shortest {r e t : List Char} (short : LowersTo r t) (long : LowersTo e t) (undotted : Undotted e) :
    e.length ≤ r.length := by
  induction short generalizing e with
  | nil =>
    cases long
    exact Nat.le_refl _
  | dotted _ ih =>
    cases long with
    | dotted others => exact Nat.succ_le_succ (ih others undotted.tail)
    | single _ letter _ others =>
      -- Then the dot is a character of its own.
      cases others with
      | single _ _ dot others =>
        obtain rfl := dot rfl
        refine absurd (List.prefix_append _ _).isInfix (undotted _ ?_)
        rcases letter rfl with rfl | rfl <;> decide
  | single _ _ _ _ ih =>
    cases long with
    | single _ _ _ others => exact Nat.succ_le_succ (ih others undotted.tail)
    | dotted others =>
      have alone : LowersTo ('\u0307' :: _) ('\u0307' :: _) := .single (by decide) (by decide) (by decide) others
      have fits := ih alone undotted.tail.dot
      simp only [List.length_cons] at fits ⊢
      omega

end Text

open Text

namespace Delimiters

variable {d : Delimiters} {s : List Char}

theorem foldLong (d : Delimiters) (s : List Char) : s.length ≤ (d.fold s).length := by
  rw [fold]
  split
  · exact (lowerSteps s).long
  · exact Nat.le_refl _

theorem readsFit {needle : List Char} (reads : d.readsAt needle s = true) : needle.length ≤ s.length := by
  induction needle generalizing s with
  | nil => exact Nat.zero_le _
  | cons p needle ih =>
    cases s with
    | nil => cases reads
    | cons c s =>
      rw [readsAt, Bool.and_eq_true] at reads
      exact Nat.succ_le_succ (ih reads.2)

theorem textInside (os : List Token.Opener) : d.textLength os s ≤ s.length := by
  induction s with
  | nil => exact Nat.le_refl _
  | cons c s ih =>
    rw [textLength, List.length_cons]
    split <;> omega

theorem commentInside {k : Nat} (found : d.commentLength? s = some k) : k + d.commentEnd.length ≤ s.length := by
  induction s generalizing k with
  | nil => cases found
  | cons c s ih =>
    rw [commentLength?] at found
    split at found
    · rename_i reads
      cases found
      have fits := readsFit reads
      rwa [String.length_toList, ← Nat.zero_add d.commentEnd.length] at fits
    · obtain ⟨k, closes, rfl⟩ := Option.map_eq_some_iff.mp found
      have := ih closes
      rw [List.length_cons]
      omega

theorem closerFound {closer : List Char} {k : Nat} (found : d.closerIndex? closer s = some k) :
    k < s.length ∧ d.fold ((s.drop k).take closer.length) = closer := by
  fun_induction closerIndex? d closer s generalizing k with
  | case1 => cases found
  | case2 c rest here =>
    cases found
    exact ⟨Nat.succ_pos _, beq_iff_eq.mp here⟩
  | case3 c rest later n partner ih =>
    obtain ⟨k, closes, rfl⟩ := Option.map_eq_some_iff.mp found
    obtain ⟨inside, stands⟩ := ih closes
    rw [List.drop_drop] at stands
    rw [List.length_drop] at inside
    refine ⟨by rw [List.length_cons]; omega, ?_⟩
    rwa [show k + n + 2 = n + 1 + k + 1 by omega, List.drop_succ_cons]
  | case4 c rest later single ih =>
    obtain ⟨k, closes, rfl⟩ := Option.map_eq_some_iff.mp found
    obtain ⟨inside, stands⟩ := ih closes
    exact ⟨Nat.succ_lt_succ inside, stands⟩

/- What is left of a text has fewer characters than the closing delimiter, and reads as it when case is ignored. -/
structure Stunted (d : Delimiters) (rest : List Char) : Prop where
  shorter : rest.length < d.variableEnd.length
  reads : d.fold rest = d.fold d.variableEnd.toList

/- Where the closing delimiter is found, it stands as a whole, or the text ends before it does. -/
theorem closerEnds {k : Nat} (found : d.closerIndex? (d.fold d.variableEnd.toList) s = some k) :
    k < s.length ∧ (k + d.variableEnd.length ≤ s.length ∨ d.Stunted (s.drop k)) := by
  obtain ⟨inside, stands⟩ := closerFound found
  refine ⟨inside, ?_⟩
  have long := foldLong d d.variableEnd.toList
  rw [String.length_toList] at long
  by_cases fits : k + d.variableEnd.length ≤ s.length
  · exact .inl fits
  · refine .inr ⟨by rw [List.length_drop]; omega, ?_⟩
    rwa [List.take_of_length_le (by rw [List.length_drop]; omega)] at stands

theorem unstunted {rest : List Char} (undotted : Undotted d.variableEnd.toList) : ¬ d.Stunted rest := by
  rintro ⟨shorter, reads⟩
  rw [fold, fold] at reads
  split at reads
  · have fits := (lowerSteps rest).shortest (reads ▸ lowerSteps d.variableEnd.toList) undotted
    rw [String.length_toList] at fits
    omega
  · rw [reads, String.length_toList] at shorter
    omega

end Delimiters

namespace Token

variable {d : Delimiters} {s text : List Char}

/- A piece that takes more than there is: it is a directive, and the text ends in a stunted closing delimiter. -/
structure Overreaches (d : Delimiters) (s : List Char) (kind : TokenKind) (n : Nat) : Prop where
  bodied : kind.Bodied
  ends : ∃ rest, rest <:+ s ∧ rest ≠ [] ∧ d.Stunted rest ∧ n + rest.length = s.length + d.variableEnd.length

theorem directiveSpan {o : Opener} {x : Piece} (opens : o.folded.length ≤ s.length) (written : o.folded ≠ [])
    (kind : o.kind.Bare ∨ o.kind.Bodied ∨ o.kind = .comment) (made : directive d o s = .ok x) :
    x.kind = o.kind ∧ 0 < x.length ∧ (x.length ≤ s.length ∨ Overreaches d s x.kind x.length) := by
  have long : 0 < o.folded.length := List.length_pos_iff.mpr written
  rcases kind with bare | bodied | comment
  · have same : x = ⟨o.kind, "", o.folded.length⟩ := by
      rcases bare with kind | kind | kind <;> simpa only [directive, kind, Except.ok.injEq, eq_comm] using made
    rw [same]
    exact ⟨rfl, long, .inl opens⟩
  · cases closes : d.closerIndex? (d.fold d.variableEnd.toList) (s.drop o.folded.length) with
    | none =>
      rcases bodied with kind | kind | kind | kind <;> simp only [directive, kind, closes] at made <;> cases made
    | some k =>
      have same : x = ⟨o.kind, String.ofList (strip ((s.drop o.folded.length).take k)),
          o.folded.length + k + d.variableEnd.length⟩ := by
        rcases bodied with kind | kind | kind | kind <;>
          simpa only [directive, kind, closes, Except.ok.injEq, eq_comm] using made
      obtain ⟨inside, ends⟩ := Delimiters.closerEnds closes
      rw [List.length_drop] at inside ends
      rw [same]
      refine ⟨rfl, by simp only; omega, ?_⟩
      rcases ends with fits | stunted
      · exact .inl (by simp only; omega)
      · rw [List.drop_drop] at stunted
        refine .inr ⟨bodied, _, List.drop_suffix _ _, ?_, stunted, ?_⟩
        · exact List.ne_nil_of_length_pos (by rw [List.length_drop]; omega)
        · rw [List.length_drop]
          simp only
          omega
  · simp only [directive, comment] at made
    split at made
    · rename_i k found
      cases made
      have fits := Delimiters.commentInside found
      rw [List.length_drop] at fits
      exact ⟨comment.symm, by simp only; omega, .inl (by simp only; omega)⟩
    · cases made

theorem pieceSpan {c : Char} {rest : List Char} {x : Piece} (written : ∀ p ∈ d.named, p.2 ≠ "")
    (made : piece d d.openers c rest = .ok x) :
    x.kind ≠ .eof ∧ 0 < x.length ∧
      (x.length ≤ rest.length + 1 ∨ Overreaches d (c :: rest) x.kind x.length) := by
  rw [piece_eq] at made
  split at made
  · rename_i o found
    obtain ⟨p, opens, rfl⟩ := Delimiters.openerFolded.mp (List.mem_of_find?_eq_some found)
    have stands := List.find?_some found
    simp only [Delimiters.opensAt, Bool.and_eq_true, beq_iff_eq, List.length_take] at stands
    have kind := openedKind opens
    have folded : d.fold p.2.toList ≠ [] := by
      have long := Delimiters.foldLong d p.2.toList
      have some := writtenLong (openedWritten written opens)
      rw [String.length_toList] at long
      exact List.ne_nil_of_length_pos (by omega)
    have span := directiveSpan (by simp only; omega) folded kind made
    refine ⟨?_, span.2⟩
    rw [span.1]
    rcases kind with (kind | kind | kind) | (kind | kind | kind | kind) | kind <;> simp [kind]
  · cases made
    have inside := Delimiters.textInside (d := d) (s := rest) d.openers
    exact ⟨by simp, Nat.succ_pos _, .inl (Nat.succ_le_succ inside)⟩

/- The text ends in less than the closing delimiter of the token, and the token stops where all of it would. -/
structure Overruns (d : Delimiters) (text : List Char) (t : Token) : Prop where
  bodied : t.kind.Bodied
  ends : ∃ rest, rest <:+ text ∧ rest ≠ [] ∧ d.Stunted rest ∧ t.stop + rest.length = text.length + d.variableEnd.length

/- The tokens of a text from one place on, up to the end of the text. Comments leave gaps. -/
inductive Spans (d : Delimiters) (text : List Char) : Nat → List Token → Prop where
  | ends {last} (whole : last.offset = text.length) : Spans d text text.length [⟨.eof, "", last, text.length⟩]
  | comment {place next ts} (later : place < next) (others : Spans d text next ts) : Spans d text place ts
  | token {place t ts} (solid : t.kind ≠ .eof) (here : t.position.offset = place) (long : place < t.stop)
      (others : Spans d text t.stop ts) : Spans d text place (t :: ts)
  | overrun {place t last} (solid : t.kind ≠ .eof) (here : t.position.offset = place) (inside : place < text.length)
      (beyond : text.length < t.stop) (overruns : Overruns d text t) (whole : last.offset = text.length) :
      Spans d text place [t, ⟨.eof, "", last, text.length⟩]

theorem Spans.inside {place : Nat} {ts : List Token} (spans : Spans d text place ts) : place ≤ text.length := by
  induction spans with
  | ends => exact Nat.le_refl _
  | comment later _ ih => omega
  | token _ _ long _ ih => omega
  | overrun _ _ inside => exact Nat.le_of_lt inside

theorem Spans.atEnd {ts : List Token} (spans : Spans d text text.length ts) :
    ∃ last, last.offset = text.length ∧ ts = [⟨.eof, "", last, text.length⟩] := by
  cases spans with
  | ends whole => exact ⟨_, whole, rfl⟩
  | comment later others => exact absurd others.inside (Nat.not_le.mpr later)
  | token _ _ long others => exact absurd others.inside (Nat.not_le.mpr long)
  | overrun _ _ inside => exact absurd inside (Nat.lt_irrefl _)

theorem scannedSpans {p : Position} {ts : List Token} (written : ∀ q ∈ d.named, q.2 ≠ "")
    (here : s = text.drop p.offset) (inside : p.offset ≤ text.length)
    (scanned : scanFrom d d.openers p s = .ok ts) : Spans d text p.offset ts := by
  induction size : s.length using Nat.strongRecOn generalizing s p ts with
  | ind n ih =>
    have left := congrArg List.length here
    rw [List.length_drop] at left
    cases s with
    | nil =>
      have whole : p.offset = text.length := by
        rw [List.length_nil] at left
        omega
      rw [scanFrom] at scanned
      cases scanned
      have ended : Spans d text text.length [⟨.eof, "", p, text.length⟩] := .ends whole
      rwa [← whole] at ended
    | cons c rest =>
      obtain ⟨x, others, made, next, rfl⟩ := scanStep scanned
      obtain ⟨solid, long, span⟩ := pieceSpan written made
      obtain ⟨moved, behind⟩ := scannedOn here long
      have shorter : (rest.drop (x.length - 1)).length < n := by
        rw [List.length_drop]
        rw [List.length_cons] at size
        omega
      rw [← moved] at behind
      have spans := ih _ shorter behind (by rw [moved]; exact Nat.min_le_right _ _) next rfl
      rw [moved] at spans
      rw [List.length_cons] at left
      rcases span with fits | overreaches
      · rw [Nat.min_eq_left (by omega)] at spans
        split
        · exact .comment (by omega) spans
        · exact .token solid rfl (Nat.lt_add_of_pos_right long) spans
      · obtain ⟨bodied, tail, ends, some, stunted, reach⟩ := overreaches
        have beyond : text.length < p.offset + x.length := by
          have := stunted.shorter
          rw [List.length_cons] at reach
          omega
        rw [Nat.min_eq_right (Nat.le_of_lt beyond)] at spans
        obtain ⟨last, whole, rfl⟩ := spans.atEnd
        have noComment : x.kind ≠ .comment := by
          rcases bodied with kind | kind | kind | kind <;> simp [kind]
        rw [if_neg noComment]
        refine .overrun solid rfl (by omega) beyond ⟨bodied, tail, ?_, some, stunted, ?_⟩ whole
        · exact (here ▸ ends).trans (List.drop_suffix _ _)
        · rw [List.length_cons] at reach
          simp only
          omega

/- What the tokens before the end of a text have in common. -/
structure Spaced (d : Delimiters) (text : List Char) (tokens : List Token) : Prop where
  begins : ∀ t ∈ tokens, t.kind ≠ .eof ∧ t.position.offset < text.length ∧ t.position.offset < t.stop
  ordered : tokens.Pairwise (fun t u => t.stop ≤ u.position.offset)
  stops : ∀ t ∈ tokens, t.stop ≤ text.length ∨ Overruns d text t

theorem Spans.spaced {place : Nat} {ts : List Token} (spans : Spans d text place ts) :
    ∃ tokens last, ts = tokens ++ [⟨.eof, "", last, text.length⟩] ∧ last.offset = text.length ∧
      Spaced d text tokens ∧ ∀ t ∈ tokens, place ≤ t.position.offset := by
  induction spans with
  | @ends last whole => exact ⟨[], last, rfl, whole, ⟨by simp, .nil, by simp⟩, by simp⟩
  | comment later _ ih =>
    obtain ⟨tokens, last, rfl, whole, spaced, after⟩ := ih
    exact ⟨tokens, last, rfl, whole, spaced, fun t member => (Nat.le_of_lt later).trans (after t member)⟩
  | @token place t ts solid here long others ih =>
    obtain ⟨tokens, last, rfl, whole, ⟨begins, ordered, stops⟩, after⟩ := ih
    have inside := others.inside
    refine ⟨t :: tokens, last, rfl, whole, ⟨?_, .cons after ordered, ?_⟩, ?_⟩
    · exact List.forall_mem_cons.mpr ⟨⟨solid, by omega, by omega⟩, begins⟩
    · exact List.forall_mem_cons.mpr ⟨.inl inside, stops⟩
    · exact List.forall_mem_cons.mpr ⟨Nat.le_of_eq here.symm, fun u member => by have := after u member; omega⟩
  | @overrun place t last solid here inside beyond overruns whole =>
    refine ⟨[t], last, rfl, whole, ⟨?_, List.pairwise_singleton _ _, ?_⟩, ?_⟩
    · simpa using ⟨solid, by omega, by omega⟩
    · simpa using .inr overruns
    · simpa using Nat.le_of_eq here.symm

/- The tokens of every text that can be scanned, whatever delimiters open and close it and whether or not case is
ignored. Only the last may stop behind the end, and none does if no letter i of the closing delimiter has its dot as a
character of its own. -/
theorem tokensSpaced (written : ∀ p ∈ d.named, p.2 ≠ "") {source : String} {ts : List Token}
    (scanned : scan d source = .ok ts) :
    ∃ tokens last, ts = tokens ++ [⟨.eof, "", last, source.length⟩] ∧ last.offset = source.length ∧
      Spaced d source.toList tokens ∧
      (Undotted d.variableEnd.toList → ∀ t ∈ tokens, t.stop ≤ source.length) := by
  have spans : Spans d source.toList 0 ts := scannedSpans (p := .start) written rfl (Nat.zero_le _) scanned
  obtain ⟨tokens, last, rfl, whole, spaced, -⟩ := spans.spaced
  rw [String.length_toList] at whole ⊢
  refine ⟨tokens, last, rfl, whole, spaced, ?_⟩
  intro undotted t member
  rcases spaced.stops t member with inside | ⟨-, rest, -, -, stunted, -⟩
  · rwa [String.length_toList] at inside
  · exact absurd stunted (Delimiters.unstunted undotted)

/- A capital with a dot, which is a closing delimiter or stands for one in lower case. -/
def sampleCapital : String := "$\x7bxİ"

def capitalClosed : Delimiters := { Delimiters.standard with variableEnd := "İ", ignoreCase := true }

theorem tokensSpacedCapital :
    ((∀ p ∈ capitalClosed.named, p.2 ≠ "") ∧ Undotted capitalClosed.variableEnd.toList) ∧
    ∃ tokens last, scan capitalClosed sampleCapital = .ok (tokens ++ [⟨.eof, "", last, sampleCapital.length⟩]) ∧
      Spaced capitalClosed sampleCapital.toList tokens ∧ ∀ t ∈ tokens, t.stop ≤ sampleCapital.length := by
  have written : ∀ p ∈ capitalClosed.named, p.2 ≠ "" := by decide
  have undotted : Undotted capitalClosed.variableEnd.toList := by
    have shut : capitalClosed.variableEnd.toList = ['İ'] := rfl
    simp [Undotted, shut, List.infix_cons_iff]
  have scanned : scan capitalClosed sampleCapital = .ok [⟨.output, "x", ⟨1, 1, 0⟩, 4⟩, ⟨.eof, "", ⟨1, 5, 4⟩, 4⟩] := by
    cbv
  obtain ⟨tokens, last, same, -, spaced, inside⟩ := tokensSpaced written scanned
  exact ⟨⟨written, undotted⟩, tokens, last, by rw [scanned, same], spaced, inside undotted⟩

def smallClosed : Delimiters := { Delimiters.standard with variableEnd := "i\u0307", ignoreCase := true }

/- Where the delimiter is the small letter with its dot, two characters, the token stops behind the end of the text. -/
theorem capitalOverruns : smallClosed.ignoreCase = true ∧ (∀ p ∈ smallClosed.named, p.2 ≠ "") ∧
    ∃ t last, scan smallClosed sampleCapital = .ok [t, ⟨.eof, "", last, sampleCapital.length⟩] ∧
      sampleCapital.length < t.stop ∧ last.offset < t.stop := by
  have scanned : scan smallClosed sampleCapital = .ok [⟨.output, "x", ⟨1, 1, 0⟩, 5⟩, ⟨.eof, "", ⟨1, 5, 4⟩, 4⟩] := by
    cbv
  exact ⟨rfl, by decide, _, _, scanned, by decide, by decide⟩

end Token
end Stencil
