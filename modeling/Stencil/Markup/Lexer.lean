import Stencil.Fault
import Stencil.Markup.Delimiters
import Stencil.Markup.Token
import Stencil.Text.Blank
import Stencil.Text.Literal

/-! Cutting a template into tokens. At each place the longest opening delimiter that stands there
wins; one that ends in a word character does not open when the word goes on. Comments leave no token. -/
namespace Stencil.Token

open Text

structure Opener where
  kind : TokenKind
  folded : List Char
  deriving DecidableEq, Repr

end Token

namespace Delimiters

open Token Text

/- The openers; of two that match, the longer stands first. -/
def openers (d : Delimiters) : List Opener :=
  let all := [(TokenKind.output, d.variableStart), (.conditionalStart, d.conditionalStart),
    (.conditionalElse, d.conditionalElse), (.conditionalEnd, d.conditionalEnd),
    (.loopStart, d.loopStart), (.loopEnd, d.loopEnd), (.inclusion, d.includeStart),
    (.comment, d.commentStart)]
  (all.map (fun (kind, text) => Opener.mk kind (d.fold text.toList))).mergeSort
    (fun a b => b.folded.length ≤ a.folded.length)

/- The opener stands at the front of the text, and ends where a word ends. -/
def opensAt (d : Delimiters) (o : Opener) (s : List Char) : Bool :=
  let n := o.folded.length
  (s.take n).length == n && d.fold (s.take n) == o.folded &&
    !(o.folded.getLast?.any isWord && (s.drop n).head?.any isWord)

def opener? (d : Delimiters) (openers : List Opener) (s : List Char) : Option Opener :=
  openers.find? (d.opensAt · s)

/- A directive begins here that text gives way to: some delimiter is read character by character, and
an opener stands here. -/
def interrupts (d : Delimiters) (openers : List Opener) (s : List Char) : Bool :=
  openers.any (fun o => d.readsAt o.folded s) && (d.opener? openers s).isSome

/- How many characters stand before the next directive, looked for at one place after the other. -/
def textLength (d : Delimiters) (openers : List Opener) : List Char → Nat
  | [] => 0
  | c :: rest =>
    if d.interrupts openers (c :: rest) then 0 else textLength d openers rest + 1

/- How many characters stand before some delimiter that is read character by character. It may go on as a
word there and open nothing. -/
def candidate? (d : Delimiters) (openers : List Opener) : List Char → Option Nat
  | [] => none
  | c :: rest =>
    if openers.any (fun o => d.readsAt o.folded (c :: rest)) then some 0
    else (candidate? d openers rest).map (· + 1)

theorem candidate?_lt {d : Delimiters} {openers : List Opener} {s : List Char} {k : Nat}
    (h : d.candidate? openers s = some k) : k < s.length := by
  induction s generalizing k with
  | nil => cases h
  | cons c rest ih =>
    rw [candidate?] at h
    split at h
    · cases h
      simp
    · obtain ⟨n, hn, rfl⟩ := Option.map_eq_some_iff.mp h
      have := ih hn
      simp; omega

/- The same from one candidate to the next. Behind one that opens nothing the search goes on with the very
next character. -/
def nextOpening (d : Delimiters) (openers : List Opener) (s : List Char) : Nat :=
  match found : d.candidate? openers s with
  | none => s.length
  | some k =>
    if (d.opener? openers (s.drop k)).isSome then k
    else nextOpening d openers (s.drop (k + 1)) + k + 1
termination_by s.length
decreasing_by
  have := candidate?_lt found
  simp only [List.length_drop]; omega

theorem nextOpening_cons (d : Delimiters) (openers : List Opener) (c : Char) (rest : List Char) :
    d.nextOpening openers (c :: rest) =
      if d.interrupts openers (c :: rest) then 0 else d.nextOpening openers rest + 1 := by
  rw [nextOpening, candidate?, interrupts]
  cases openers.any (fun o => d.readsAt o.folded (c :: rest)) with
  | true => cases h : (d.opener? openers (c :: rest)).isSome <;> simp [h]
  | false =>
    rw [nextOpening]
    cases d.candidate? openers rest with
    | none => simp
    | some k => cases h : (d.opener? openers (rest.drop k)).isSome <;> simp [h]; omega

theorem nextOpening_eq_textLength (d : Delimiters) (openers : List Opener) (s : List Char) :
    d.nextOpening openers s = d.textLength openers s := by
  induction s with
  | nil => simp [nextOpening, candidate?, textLength]
  | cons c rest ih => rw [nextOpening_cons, textLength, ih]

/- How many characters stand before the closing delimiter. What stands between quotes is skipped; a
quote without its partner is a character like any other. -/
def closerIndex? (d : Delimiters) (closer s : List Char) : Option Nat :=
  match s with
  | [] => none
  | c :: rest =>
    if d.fold ((c :: rest).take closer.length) == closer then some 0
    else match if isQuote c then closingQuote? c rest else none with
      | some n => (closerIndex? d closer (rest.drop (n + 1))).map (· + n + 2)
      | none => (closerIndex? d closer rest).map (· + 1)
termination_by s.length
decreasing_by
  · simp only [List.length_drop, List.length_cons]; omega
  · simp

def commentLength? (d : Delimiters) : List Char → Option Nat
  | [] => none
  | c :: rest =>
    if d.readsAt d.commentEnd.toList (c :: rest) then some 0
    else (commentLength? d rest).map (· + 1)

end Delimiters

namespace Token

open Text

/- One piece at the front of a text: its kind, its value and how long it is. Under folding, the length
of a directive may exceed that of the text. -/
structure Piece where
  kind : TokenKind
  value : String
  length : Nat
  deriving DecidableEq, Repr

def directiveWord : TokenKind → String
  | .conditionalStart => "conditional start"
  | .loopStart => "loop start"
  | kind => kind.word

def directive (d : Delimiters) (o : Opener) (s : List Char) : Except Reason Piece :=
  let n := o.folded.length
  let body := s.drop n
  match o.kind with
  | .conditionalElse | .conditionalEnd | .loopEnd => .ok ⟨o.kind, "", n⟩
  | .comment =>
    match d.commentLength? body with
    | some k => .ok ⟨.comment, "", n + k + d.commentEnd.length⟩
    | none => .error (.unclosedComment d.commentEnd)
  | kind =>
    match d.closerIndex? (d.fold d.variableEnd.toList) body with
    | some k => .ok ⟨kind, String.ofList (strip (body.take k)), n + k + d.variableEnd.length⟩
    | none => .error (.unclosedDirective (directiveWord kind) d.variableEnd)

def piece (d : Delimiters) (openers : List Opener) (c : Char) (rest : List Char) :
    Except Reason Piece :=
  match d.opener? openers (c :: rest) with
  | some o => directive d o (c :: rest)
  | none =>
    let n := d.nextOpening openers rest + 1
    .ok ⟨.text, String.ofList ((c :: rest).take n), n⟩

theorem piece_eq (d : Delimiters) (openers : List Opener) (c : Char) (rest : List Char) :
    piece d openers c rest =
      match d.opener? openers (c :: rest) with
      | some o => directive d o (c :: rest)
      | none =>
        let n := d.textLength openers rest + 1
        .ok ⟨.text, String.ofList ((c :: rest).take n), n⟩ := by
  rw [piece, Delimiters.nextOpening_eq_textLength]

def scanFrom (d : Delimiters) (openers : List Opener) (p : Position) (s : List Char) :
    Except TemplateError (List Token) :=
  match s with
  | [] => .ok [⟨.eof, "", p, p.offset⟩]
  | c :: rest =>
    match piece d openers c rest with
    | .error reason => .error (.located p reason)
    | .ok piece =>
      let next := p.advanceOver ((c :: rest).take piece.length)
      match scanFrom d openers next (rest.drop (piece.length - 1)) with
      | .error e => .error e
      | .ok tokens =>
        if piece.kind = .comment then .ok tokens
        else .ok (⟨piece.kind, piece.value, p, p.offset + piece.length⟩ :: tokens)
termination_by s.length
decreasing_by simp only [List.length_drop, List.length_cons]; omega

def scan (d : Delimiters) (text : String) : Except TemplateError (List Token) :=
  scanFrom d d.openers .start text.toList

end Token
end Stencil
