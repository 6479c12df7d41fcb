import Mathlib.Data.List.Chain
import Stencil.Proofs.Blocks

/-! The tokens of a template tile its text. Tokens and comments stand one behind the other from the first
character to the last; each is what the delimiter that was taken for it makes of its characters, and a text
goes on for as long as no delimiter starts. -/
namespace Stencil

open Text

/- Where the body of a directive ends: its closing delimiter stands here, and what stands between a quote
and its partner was passed over. -/
inductive Shuts (closer : List Char) : List Char → Nat → Prop where
  | here {s} (stands : closer <+: s) : Shuts closer s 0
  | quoted {c s n k} (later : ¬ closer <+: c :: s) (quote : isQuote c = true)
      (partner : closingQuote? c s = some n) (others : Shuts closer (s.drop (n + 1)) k) :
      Shuts closer (c :: s) (k + n + 2)
  | plain {c s k} (later : ¬ closer <+: c :: s) (single : isQuote c = true → closingQuote? c s = none)
      (others : Shuts closer s k) : Shuts closer (c :: s) (k + 1)

theorem shutsStands {closer s : List Char} {k : Nat} (shuts : Shuts closer s k) : closer <+: s.drop k := by
  induction shuts with
  | here stands => exact stands
  | @quoted c s n k _ _ _ _ ih =>
    rw [List.drop_drop] at ih
    rwa [show k + n + 2 = n + 1 + k + 1 by omega, List.drop_succ_cons]
  | plain _ _ _ ih => exact ih

namespace Delimiters

/- The delimiters that open something, each with what it opens. -/
def opening (d : Delimiters) : List (TokenKind × String) := [
  (.output, d.variableStart), (.conditionalStart, d.conditionalStart),
  (.conditionalElse, d.conditionalElse), (.conditionalEnd, d.conditionalEnd),
  (.loopStart, d.loopStart), (.loopEnd, d.loopEnd), (.inclusion, d.includeStart),
  (.comment, d.commentStart)]

/- The delimiter stands at the front of the text and does not end inside a word. -/
def Starts (delimiter s : List Char) : Prop :=
  delimiter <+: s ∧
    ¬ (delimiter.getLast?.any isWord = true ∧ (s.drop delimiter.length).head?.any isWord = true)

/- Nothing is opened at the front of the text. -/
def Unopened (d : Delimiters) (s : List Char) : Prop := ∀ p ∈ d.opening, ¬ Starts p.2.toList s

/- Of the delimiters that start here, none is longer. -/
structure Taken (d : Delimiters) (kind : TokenKind) (delimiter : String) (s : List Char) : Prop where
  opens : (kind, delimiter) ∈ d.opening
  starts : Starts delimiter.toList s
  longest : ∀ p ∈ d.opening, Starts p.2.toList s → p.2.length ≤ delimiter.length

variable {d : Delimiters} {s : List Char}

theorem openerFolded {o : Token.Opener} :
    o ∈ d.openers ↔ ∃ p ∈ d.opening, o = ⟨p.1, d.fold p.2.toList⟩ := by
  simp only [openers, opening, List.mem_mergeSort, List.mem_map, eq_comm]

theorem openerNamed {o : Token.Opener} (cased : d.ignoreCase = false) :
    o ∈ d.openers ↔ ∃ p ∈ d.opening, o = ⟨p.1, p.2.toList⟩ := by
  have same (t : String) : d.fold t.toList = t.toList := by simp [fold, cased]
  simp only [openerFolded, same]

theorem opensStarts {o : Token.Opener} (cased : d.ignoreCase = false) :
    d.opensAt o s = true ↔ Starts o.folded s := by
  have stands : ((s.take o.folded.length).length = o.folded.length ∧ s.take o.folded.length = o.folded) ↔
      o.folded <+: s := by
    rw [List.prefix_iff_eq_take, eq_comm (a := o.folded)]
    constructor
    · exact And.right
    · intro same
      exact ⟨congrArg List.length same, same⟩
  simp only [opensAt, fold, cased, Bool.false_eq_true, if_false, Bool.and_eq_true, beq_iff_eq,
    Bool.not_eq_true', Starts, ← stands]
  rw [Bool.and_eq_false_iff, not_and_or, Bool.not_eq_true, Bool.not_eq_true]

theorem openerUnopened (cased : d.ignoreCase = false) : d.opener? d.openers s = none ↔ d.Unopened s := by
  rw [opener?, List.find?_eq_none]
  constructor
  · intro none p member starts
    exact none ⟨p.1, p.2.toList⟩ ((openerNamed cased).mpr ⟨p, member, rfl⟩) ((opensStarts cased).mpr starts)
  · intro plain o member opens
    obtain ⟨p, named, rfl⟩ := (openerNamed cased).mp member
    exact plain p named ((opensStarts cased).mp opens)

theorem openersOrdered : d.openers.Pairwise (fun a b => b.folded.length ≤ a.folded.length) := by
  have trans : ∀ a b c : Token.Opener, decide (b.folded.length ≤ a.folded.length) = true →
      decide (c.folded.length ≤ b.folded.length) = true → decide (c.folded.length ≤ a.folded.length) = true := by
    simp only [decide_eq_true_eq]
    omega
  have total : ∀ a b : Token.Opener,
      (decide (b.folded.length ≤ a.folded.length) || decide (a.folded.length ≤ b.folded.length)) = true := by
    simp only [Bool.or_eq_true, decide_eq_true_eq]
    omega
  simpa only [openers, decide_eq_true_eq] using List.pairwise_mergeSort trans total _

/- The openers are tried from the longest to the shortest, so the first that fits is the longest. -/
theorem openerTaken {o : Token.Opener} (cased : d.ignoreCase = false)
    (found : d.opener? d.openers s = some o) :
    ∃ delimiter, o.folded = delimiter.toList ∧ d.Taken o.kind delimiter s := by
  rw [opener?, List.find?_eq_some_iff_append] at found
  obtain ⟨opens, before, after, split, fails⟩ := found
  obtain ⟨p, named, rfl⟩ := (openerNamed cased).mp (show o ∈ d.openers by simp [split])
  refine ⟨p.2, rfl, named, (opensStarts cased).mp opens, ?_⟩
  intro q member starts
  have later : ⟨q.1, q.2.toList⟩ ∈ before ++ ⟨p.1, p.2.toList⟩ :: after :=
    split ▸ (openerNamed cased).mpr ⟨q, member, rfl⟩
  have ordered := split ▸ openersOrdered (d := d)
  have first := (List.pairwise_cons.mp (List.pairwise_append.mp ordered).2.1).1
  rcases List.mem_append.mp later with early | late
  · have fails := fails _ early
    rw [(opensStarts cased).mpr starts] at fails
    cases fails
  · rw [← String.length_toList, ← String.length_toList]
    rcases List.mem_cons.mp late with same | late
    · have folded := congrArg Token.Opener.folded same
      exact (congrArg List.length folded).le
    · exact first _ late

theorem interruptsOpens (cased : d.ignoreCase = false) :
    d.interrupts d.openers s = true ↔ ¬ d.Unopened s := by
  rw [← openerUnopened cased, interrupts, Bool.and_eq_true, Option.isSome_iff_ne_none]
  constructor
  · exact And.right
  · intro found
    obtain ⟨o, first⟩ := Option.ne_none_iff_exists'.mp found
    obtain ⟨delimiter, same, taken⟩ := openerTaken cased first
    refine ⟨List.any_eq_true.mpr ⟨o, List.mem_of_find?_eq_some first, ?_⟩, found⟩
    rw [readsAt_eq_isPrefixOf cased, same]
    exact List.isPrefixOf_iff_prefix.mpr taken.starts.1

/- A text ends before the first delimiter that starts behind it. -/
theorem textEnds (cased : d.ignoreCase = false) (s : List Char) :
    d.textLength d.openers s ≤ s.length ∧ (∀ i < d.textLength d.openers s, d.Unopened (s.drop i)) ∧
      (s.drop (d.textLength d.openers s) = [] ∨ ¬ d.Unopened (s.drop (d.textLength d.openers s))) := by
  induction s with
  | nil => simp [textLength]
  | cons c rest ih =>
    obtain ⟨inside, plain, ends⟩ := ih
    rw [textLength]
    split
    · rename_i interrupted
      exact ⟨by omega, by omega, .inr ((interruptsOpens cased).mp interrupted)⟩
    · rename_i goes
      refine ⟨by simpa using inside, ?_, by simpa using ends⟩
      intro i below
      cases i with
      | zero => exact not_not.mp (fun opens => goes ((interruptsOpens cased).mpr opens))
      | succ i => exact plain i (by omega)

theorem closerShuts {closer : List Char} (cased : d.ignoreCase = false) (written : closer ≠ []) {k : Nat} :
    d.closerIndex? closer s = some k ↔ Shuts closer s k := by
  have stands (s : List Char) : (d.fold (s.take closer.length) == closer) = true ↔ closer <+: s := by
    rw [List.prefix_iff_eq_take, beq_iff_eq, fold, cased, eq_comm]
    rfl
  constructor
  · intro found
    fun_induction closerIndex? d closer s generalizing k with
    | case1 => cases found
    | case2 c rest here =>
      cases found
      exact .here ((stands _).mp here)
    | case3 c rest later n partner ih =>
      obtain ⟨k, closes, rfl⟩ := Option.map_eq_some_iff.mp found
      split at partner
      · rename_i quote
        exact .quoted (fun prefixed => later ((stands _).mpr prefixed)) quote partner (ih closes)
      · cases partner
    | case4 c rest later single ih =>
      obtain ⟨k, closes, rfl⟩ := Option.map_eq_some_iff.mp found
      refine .plain (fun prefixed => later ((stands _).mpr prefixed)) (fun quote => ?_) (ih closes)
      simpa [quote] using single
  · intro shuts
    induction shuts with
    | @here s prefixed =>
      cases s with
      | nil => exact absurd (List.prefix_nil.mp prefixed) written
      | cons c s => rw [closerIndex?, if_pos ((stands _).mpr prefixed)]
    | quoted later quote partner _ ih =>
      rw [closerIndex?, if_neg (fun here => later ((stands _).mp here))]
      simp [quote, partner, ih]
    | @plain c s k later single _ ih =>
      rw [closerIndex?, if_neg (fun here => later ((stands _).mp here))]
      have none : (if isQuote c then closingQuote? c s else none) = none := by
        split
        · exact single ‹_›
        · rfl
      simp [none, ih]

/- A comment ends where its closing delimiter stands first. -/
def CommentEnds (d : Delimiters) (s : List Char) (k : Nat) : Prop :=
  d.commentEnd.toList <+: s.drop k ∧ ∀ i < k, ¬ d.commentEnd.toList <+: s.drop i

theorem commentFirst (cased : d.ignoreCase = false) {k : Nat} (found : d.commentLength? s = some k) :
    d.CommentEnds s k := by
  induction s generalizing k with
  | nil => cases found
  | cons c rest ih =>
    rw [commentLength?, readsAt_eq_isPrefixOf cased] at found
    split at found
    · rename_i stands
      cases found
      exact ⟨List.isPrefixOf_iff_prefix.mp stands, by omega⟩
    · rename_i later
      obtain ⟨k, closes, rfl⟩ := Option.map_eq_some_iff.mp found
      obtain ⟨stands, first⟩ := ih closes
      refine ⟨stands, ?_⟩
      intro i below
      cases i with
      | zero => exact fun stands => later (List.isPrefixOf_iff_prefix.mpr stands)
      | succ i => exact first i (by omega)

theorem commentOpen (cased : d.ignoreCase = false) (written : d.commentEnd.toList ≠ [])
    (none : d.commentLength? s = none) (k : Nat) : ¬ d.commentEnd.toList <+: s.drop k := by
  induction s generalizing k with
  | nil => simpa using written
  | cons c rest ih =>
    rw [commentLength?, readsAt_eq_isPrefixOf cased] at none
    split at none
    · cases none
    · rename_i later
      cases k with
      | zero => exact fun stands => later (List.isPrefixOf_iff_prefix.mpr stands)
      | succ k => exact ih (by simpa using none) k

end Delimiters

namespace TokenKind

/- What has no more to it than its delimiter. -/
def Bare (kind : TokenKind) : Prop := kind = .conditionalElse ∨ kind = .conditionalEnd ∨ kind = .loopEnd

/- What has a body, up to the closing delimiter. -/
def Bodied (kind : TokenKind) : Prop :=
  kind = .output ∨ kind = .conditionalStart ∨ kind = .loopStart ∨ kind = .inclusion

end TokenKind

namespace Token

/- What may be cut off from the front of a text: its kind, its value and how many characters it takes. -/
inductive Cut (d : Delimiters) (s : List Char) : TokenKind → String → Nat → Prop where
  | text {n} (long : 0 < n) (inside : n ≤ s.length) (plain : ∀ i < n, d.Unopened (s.drop i))
      (ends : s.drop n = [] ∨ ¬ d.Unopened (s.drop n)) :
      Cut d s .text (String.ofList (s.take n)) n
  | marker {kind delimiter} (bare : kind.Bare) (taken : d.Taken kind delimiter s) :
      Cut d s kind "" delimiter.length
  | directive {kind delimiter k} (bodied : kind.Bodied) (taken : d.Taken kind delimiter s)
      (shuts : Shuts d.variableEnd.toList (s.drop delimiter.length) k) :
      Cut d s kind (String.ofList (strip ((s.drop delimiter.length).take k)))
        (delimiter.length + k + d.variableEnd.length)
  | comment {delimiter k} (taken : d.Taken .comment delimiter s)
      (ends : d.CommentEnds (s.drop delimiter.length) k) :
      Cut d s .comment "" (delimiter.length + k + d.commentEnd.length)

/- What is opened at the front of a text and never closed. -/
inductive Unclosed (d : Delimiters) (s : List Char) : Reason → Prop where
  | directive {kind delimiter} (bodied : kind.Bodied) (taken : d.Taken kind delimiter s)
      (never : ∀ k, ¬ Shuts d.variableEnd.toList (s.drop delimiter.length) k) :
      Unclosed d s (.unclosedDirective (directiveWord kind) d.variableEnd)
  | comment {delimiter} (taken : d.Taken .comment delimiter s)
      (never : ∀ k, ¬ d.commentEnd.toList <+: (s.drop delimiter.length).drop k) :
      Unclosed d s (.unclosedComment d.commentEnd)

variable {d : Delimiters} {s : List Char}

theorem openedKind {kind : TokenKind} {delimiter : String} (opens : (kind, delimiter) ∈ d.opening) :
    kind.Bare ∨ kind.Bodied ∨ kind = .comment := by
  simp only [Delimiters.opening, List.mem_cons, Prod.mk.injEq, List.not_mem_nil, or_false] at opens
  rcases opens with ⟨rfl, -⟩ | ⟨rfl, -⟩ | ⟨rfl, -⟩ | ⟨rfl, -⟩ | ⟨rfl, -⟩ | ⟨rfl, -⟩ | ⟨rfl, -⟩ | ⟨rfl, -⟩ <;>
    simp [TokenKind.Bare, TokenKind.Bodied]

theorem bodiedCut {o : Opener} {delimiter : String} (cased : d.ignoreCase = false) (written : d.variableEnd ≠ "")
    (same : o.folded = delimiter.toList) (bodied : o.kind.Bodied) (taken : d.Taken o.kind delimiter s) :
    (∃ piece, directive d o s = .ok piece ∧ Cut d s piece.kind piece.value piece.length) ∨
      ∃ reason, directive d o s = .error reason ∧ Unclosed d s reason := by
  have shut : d.variableEnd.toList ≠ [] := by simpa [String.toList_eq_nil_iff] using written
  cases closes : d.closerIndex? d.variableEnd.toList (s.drop delimiter.length) with
  | some k =>
    have made : directive d o s = .ok ⟨o.kind, String.ofList (strip ((s.drop delimiter.length).take k)),
        delimiter.length + k + d.variableEnd.length⟩ := by
      rcases bodied with kind | kind | kind | kind <;>
        simp only [directive, kind, same, String.length_toList, Delimiters.fold, cased, Bool.false_eq_true, if_false,
          closes]
    have shuts := (Delimiters.closerShuts cased shut).mp closes
    exact .inl ⟨_, made, .directive bodied taken shuts⟩
  | none =>
    have made : directive d o s = .error (.unclosedDirective (directiveWord o.kind) d.variableEnd) := by
      rcases bodied with kind | kind | kind | kind <;>
        simp only [directive, kind, same, String.length_toList, Delimiters.fold, cased, Bool.false_eq_true, if_false,
          closes]
    refine .inr ⟨_, made, .directive bodied taken ?_⟩
    intro k shuts
    rw [(Delimiters.closerShuts cased shut).mpr shuts] at closes
    cases closes

theorem commentCut {o : Opener} {delimiter : String} (cased : d.ignoreCase = false) (written : d.commentEnd ≠ "")
    (same : o.folded = delimiter.toList) (kind : o.kind = .comment) (taken : d.Taken o.kind delimiter s) :
    (∃ piece, directive d o s = .ok piece ∧ Cut d s piece.kind piece.value piece.length) ∨
      ∃ reason, directive d o s = .error reason ∧ Unclosed d s reason := by
  rw [kind] at taken
  cases closes : d.commentLength? (s.drop delimiter.length) with
  | some k =>
    have made : directive d o s = .ok ⟨.comment, "", delimiter.length + k + d.commentEnd.length⟩ := by
      simp only [directive, kind, same, String.length_toList, closes]
    exact .inl ⟨_, made, .comment taken (Delimiters.commentFirst cased closes)⟩
  | none =>
    have made : directive d o s = .error (.unclosedComment d.commentEnd) := by
      simp only [directive, kind, same, String.length_toList, closes]
    have shut : d.commentEnd.toList ≠ [] := by simpa [String.toList_eq_nil_iff] using written
    exact .inr ⟨_, made, .comment taken (Delimiters.commentOpen cased shut closes)⟩

/- One step of the scanner, whatever stands at the front. -/
theorem pieceCut (c : Char) (rest : List Char) (cased : d.ignoreCase = false) (written : ∀ p ∈ d.named, p.2 ≠ "") :
    (∃ p, piece d d.openers c rest = .ok p ∧ Cut d (c :: rest) p.kind p.value p.length) ∨
      ∃ reason, piece d d.openers c rest = .error reason ∧ Unclosed d (c :: rest) reason := by
  rw [piece_eq]
  cases found : d.opener? d.openers (c :: rest) with
  | none =>
    obtain ⟨inside, plain, ends⟩ := Delimiters.textEnds cased rest
    refine .inl ⟨_, rfl, .text (by simp) (by simpa using inside) ?_ ends⟩
    intro i below
    cases i with
    | zero => exact (Delimiters.openerUnopened cased).mp found
    | succ i => exact plain i (by simpa using below)
  | some o =>
    obtain ⟨delimiter, same, taken⟩ := Delimiters.openerTaken cased found
    rcases openedKind taken.opens with bare | bodied | comment
    · refine .inl ⟨⟨o.kind, "", delimiter.length⟩, ?_, .marker bare taken⟩
      rcases bare with kind | kind | kind <;> simp only [directive, kind, same, String.length_toList]
    · exact bodiedCut cased (written ("variable_end", _) (by simp [Delimiters.named])) same bodied taken
    · exact commentCut cased (written ("comment_end", _) (by simp [Delimiters.named])) same comment taken

theorem openedWritten {kind : TokenKind} {delimiter : String} (written : ∀ p ∈ d.named, p.2 ≠ "")
    (opens : (kind, delimiter) ∈ d.opening) : delimiter ≠ "" := by
  simp only [Delimiters.named, List.forall_mem_cons] at written
  simp only [Delimiters.opening, List.mem_cons, Prod.mk.injEq, List.not_mem_nil, or_false] at opens
  rcases opens with ⟨-, rfl⟩ | ⟨-, rfl⟩ | ⟨-, rfl⟩ | ⟨-, rfl⟩ | ⟨-, rfl⟩ | ⟨-, rfl⟩ | ⟨-, rfl⟩ | ⟨-, rfl⟩ <;>
    simp only [written, ne_eq, not_false_eq_true]

theorem writtenLong {delimiter : String} (written : delimiter ≠ "") : 0 < delimiter.length := by
  rw [← String.length_toList]
  exact List.length_pos_iff.mpr (by simpa [String.toList_eq_nil_iff] using written)

theorem standsInside {delimiter : String} {k : Nat} (written : delimiter ≠ "")
    (stands : delimiter.toList <+: s.drop k) : k + delimiter.length ≤ s.length := by
  have fits := stands.length_le
  have long := writtenLong written
  rw [String.length_toList, List.length_drop] at fits
  omega

theorem cutInside {kind : TokenKind} {value : String} {n : Nat} (written : ∀ p ∈ d.named, p.2 ≠ "")
    (cut : Cut d s kind value n) : 0 < n ∧ n ≤ s.length := by
  have opened {kind : TokenKind} {delimiter : String} (taken : d.Taken kind delimiter s) :
      0 < delimiter.length ∧ 0 + delimiter.length ≤ s.length := by
    have named := openedWritten written taken.opens
    exact ⟨writtenLong named, standsInside named taken.starts.1⟩
  cases cut with
  | text long inside => exact ⟨long, inside⟩
  | marker _ taken => simpa using opened taken
  | directive _ taken shuts =>
    have shut : d.variableEnd ≠ "" := written ("variable_end", d.variableEnd) (by simp [Delimiters.named])
    have fits := standsInside shut (shutsStands shuts)
    rw [List.length_drop] at fits
    have := opened taken
    omega
  | comment taken ends =>
    have shut : d.commentEnd ≠ "" := written ("comment_end", d.commentEnd) (by simp [Delimiters.named])
    have fits := standsInside shut ends.1
    rw [List.length_drop] at fits
    have := opened taken
    omega

/- The pieces of a text from one place on. Each begins where the one before it stopped; a comment is a
piece like any other. -/
inductive Tiles (d : Delimiters) (text : List Char) : Nat → List Token → Prop where
  | ends : Tiles d text text.length []
  | cons {place t ts} (here : t.position.offset = place) (long : place < t.stop) (inside : t.stop ≤ text.length)
      (cut : Cut d (text.drop place) t.kind t.value (t.stop - place)) (others : Tiles d text t.stop ts) :
      Tiles d text place (t :: ts)

variable {text : List Char}

/- Behind a piece the scan goes on where the piece ends, and at the end of the text if it reaches further. -/
theorem scannedOn {p : Position} {c : Char} {rest : List Char} {x : Piece} (here : c :: rest = text.drop p.offset)
    (long : 0 < x.length) :
    (p.advanceOver ((c :: rest).take x.length)).offset = min (p.offset + x.length) text.length ∧
      rest.drop (x.length - 1) = text.drop (min (p.offset + x.length) text.length) := by
  have size := congrArg List.length here
  rw [List.length_cons, List.length_drop] at size
  constructor
  · rw [Position.offset_advanceOver, List.length_take, List.length_cons]
    omega
  · obtain ⟨n, same⟩ := Nat.exists_eq_succ_of_ne_zero (Nat.ne_of_gt long)
    have behind : rest.drop n = text.drop (p.offset + (n + 1)) := by
      rw [← List.drop_drop, ← here, List.drop_succ_cons]
    rw [same, Nat.succ_sub_one, behind]
    rcases Nat.le_total (p.offset + (n + 1)) text.length with fits | beyond
    · rw [Nat.min_eq_left fits]
    · rw [Nat.min_eq_right beyond, List.drop_length, List.drop_eq_nil_iff]
      exact beyond

/- What one step takes, and where the next one begins. -/
theorem stepTaken {p : Position} {c : Char} {rest : List Char} {x : Piece} (cased : d.ignoreCase = false)
    (written : ∀ q ∈ d.named, q.2 ≠ "") (here : c :: rest = text.drop p.offset)
    (made : piece d d.openers c rest = .ok x) :
    Cut d (text.drop p.offset) x.kind x.value x.length ∧ 0 < x.length ∧ p.offset + x.length ≤ text.length ∧
      (p.advanceOver ((c :: rest).take x.length)).offset = p.offset + x.length ∧
      rest.drop (x.length - 1) = text.drop (p.offset + x.length) := by
  have cut : Cut d (c :: rest) x.kind x.value x.length := by
    obtain ⟨x', made', cut⟩ | ⟨reason, failed, -⟩ := pieceCut c rest cased written
    · exact Except.ok.inj (made'.symm.trans made) ▸ cut
    · rw [failed] at made
      cases made
  obtain ⟨long, inside⟩ := cutInside written cut
  have behind := congrArg List.length here
  rw [List.length_drop] at behind
  have fits : p.offset + x.length ≤ text.length := by omega
  have moved := scannedOn here long
  rw [Nat.min_eq_left fits] at moved
  exact ⟨here ▸ cut, long, fits, moved⟩

/- What the scanner says of a text from one place on. -/
def Answers (d : Delimiters) (text : List Char) (place : Nat) : Except TemplateError (List Token) → Prop
  | .error e => ∃ p reason, e = .located p reason ∧ p.offset < text.length ∧
      Unclosed d (text.drop p.offset) reason
  | .ok ts => ∃ tiles last, ts = tiles.filter (·.kind ≠ .comment) ++ [⟨.eof, "", last, text.length⟩] ∧
      last.offset = text.length ∧ Tiles d text place tiles

theorem scannedTiles {p : Position} (cased : d.ignoreCase = false) (written : ∀ q ∈ d.named, q.2 ≠ "")
    (here : s = text.drop p.offset) (inside : p.offset ≤ text.length) :
    Answers d text p.offset (scanFrom d d.openers p s) := by
  fun_induction scanFrom d d.openers p s with
  | case1 p =>
    have behind := congrArg List.length here
    rw [List.length_nil, List.length_drop] at behind
    have whole : p.offset = text.length := by omega
    rw [whole]
    exact ⟨[], p, rfl, whole, .ends⟩
  | case2 p c rest reason failed =>
    have behind := congrArg List.length here
    rw [List.length_cons, List.length_drop] at behind
    obtain ⟨x, made, -⟩ | ⟨reason', made, unclosed⟩ := pieceCut c rest cased written
    · rw [made] at failed
      cases failed
    · obtain rfl : reason = reason' := Except.error.inj (failed.symm.trans made)
      exact ⟨p, reason, rfl, by omega, here ▸ unclosed⟩
  | case3 p c rest x made next e failed ih =>
    obtain ⟨-, -, inside, moved, others⟩ := stepTaken cased written here made
    rw [failed, moved] at ih
    exact ih others inside
  | case4 p c rest x made next ts scanned comment ih =>
    obtain ⟨cut, long, inside, moved, others⟩ := stepTaken cased written here made
    rw [scanned, moved] at ih
    obtain ⟨tiles, last, rfl, ends, tiled⟩ := ih others inside
    have first : Tiles d text p.offset (⟨x.kind, x.value, p, p.offset + x.length⟩ :: tiles) :=
      .cons rfl (by simpa using long) inside (by simpa using cut) tiled
    exact ⟨_, last, by simp [comment], ends, first⟩
  | case5 p c rest x made next ts scanned solid ih =>
    obtain ⟨cut, long, inside, moved, others⟩ := stepTaken cased written here made
    rw [scanned, moved] at ih
    obtain ⟨tiles, last, rfl, ends, tiled⟩ := ih others inside
    have first : Tiles d text p.offset (⟨x.kind, x.value, p, p.offset + x.length⟩ :: tiles) :=
      .cons rfl (by simpa using long) inside (by simpa using cut) tiled
    exact ⟨_, last, by simp [solid], ends, first⟩

theorem tilesBounds {place : Nat} {tiles : List Token} (tiled : Tiles d text place tiles) :
    place ≤ text.length ∧ ∀ t ∈ tiles, place ≤ t.position.offset ∧ t.position.offset < t.stop ∧
      t.stop ≤ text.length ∧
      Cut d (text.drop t.position.offset) t.kind t.value (t.stop - t.position.offset) := by
  induction tiled with
  | ends => simp
  | @cons place t ts here long inside cut _ ih =>
    refine ⟨by omega, ?_⟩
    intro u member
    rcases List.mem_cons.mp member with rfl | later
    · rw [here]
      exact ⟨le_refl _, long, inside, cut⟩
    · obtain ⟨after, others⟩ := ih.2 u later
      exact ⟨by omega, others⟩

theorem tilesOrdered {place : Nat} {tiles : List Token} (tiled : Tiles d text place tiles) :
    tiles.Pairwise (fun t u => t.stop ≤ u.position.offset) := by
  induction tiled with
  | ends => exact .nil
  | cons _ _ _ _ others ih => exact .cons (fun u member => ((tilesBounds others).2 u member).1) ih

theorem tilesCover {place i : Nat} {tiles : List Token} (tiled : Tiles d text place tiles) (after : place ≤ i)
    (below : i < text.length) : ∃ t ∈ tiles, t.position.offset ≤ i ∧ i < t.stop := by
  induction tiled with
  | ends => omega
  | @cons place t ts here _ _ _ _ ih =>
    by_cases inside : i < t.stop
    · exact ⟨t, List.mem_cons_self, by omega, inside⟩
    · obtain ⟨u, member, found⟩ := ih (by omega)
      exact ⟨u, List.mem_cons_of_mem t member, found⟩

theorem cutKind {kind : TokenKind} {value : String} {n : Nat} (cut : Cut d s kind value n) : kind ≠ .eof := by
  cases cut with
  | text => simp
  | marker bare => rcases bare with rfl | rfl | rfl <;> simp
  | directive bodied => rcases bodied with rfl | rfl | rfl | rfl <;> simp
  | comment => simp

theorem tilesFirst {place : Nat} {t : Token} {ts : List Token} (tiled : Tiles d text place (t :: ts)) :
    t.position.offset = place ∧ place < t.stop ∧ t.stop ≤ text.length ∧
      Cut d (text.drop place) t.kind t.value (t.stop - place) ∧ Tiles d text t.stop ts := by
  cases tiled with | cons here long inside cut others => exact ⟨here, long, inside, cut, others⟩

theorem tilesBehind {place : Nat} {before after : List Token} {t : Token}
    (tiled : Tiles d text place (before ++ t :: after)) : Tiles d text t.position.offset (t :: after) := by
  induction before generalizing place with
  | nil => exact (tilesFirst tiled).1 ▸ tiled
  | cons u before ih =>
    obtain ⟨-, -, -, -, others⟩ := tilesFirst tiled
    exact ih others

theorem cutText {kind : TokenKind} {value : String} {n : Nat} (cut : Cut d s kind value n)
    (text : kind = .text) : d.Unopened s ∧ (s.drop n = [] ∨ ¬ d.Unopened (s.drop n)) := by
  cases cut with
  | text long _ plain ends => exact ⟨plain 0 long, ends⟩
  | marker bare => simp [TokenKind.Bare, text] at bare
  | directive bodied => simp [TokenKind.Bodied, text] at bodied
  | comment => cases text

/- No text follows a text. -/
theorem textsApart {place : Nat} {t u : Token} {ts : List Token} (tiled : Tiles d text place (t :: u :: ts))
    (first : t.kind = .text) : u.kind ≠ .text := by
  intro second
  obtain ⟨-, long, -, cut, others⟩ := tilesFirst tiled
  obtain ⟨-, long', inside, cut', -⟩ := tilesFirst others
  have plain := (cutText cut' second).1
  have ends := (cutText cut first).2
  rw [List.drop_drop, Nat.add_sub_cancel' (by omega)] at ends
  obtain ends | opens := ends
  · have := List.drop_eq_nil_iff.mp ends
    omega
  · exact opens plain

/- Texts that are neighbours in what the scanner keeps have a comment between them. -/
theorem commentBetween {place : Nat} {tiles before after : List Token} {t u : Token}
    (tiled : Tiles d text place tiles) (kept : tiles.filter (·.kind ≠ .comment) = before ++ t :: u :: after)
    (first : t.kind = .text) (second : u.kind = .text) :
    ∃ c ∈ tiles, c.kind = .comment ∧ c.position.offset = t.stop := by
  obtain ⟨front, back, rfl, -, kept⟩ := List.filter_eq_append_iff.mp kept
  obtain ⟨skipped, others, rfl, -, -, kept⟩ := List.filter_eq_cons_iff.mp kept
  rw [← List.append_assoc] at tiled
  have behind := tilesBehind tiled
  obtain ⟨-, -, -, -, next⟩ := tilesFirst behind
  obtain ⟨comments, rest, rfl, comment, -, -⟩ := List.filter_eq_cons_iff.mp kept
  cases comments with
  | nil => exact absurd second (textsApart behind first)
  | cons c comments =>
    have here := (tilesFirst next).1
    exact ⟨c, by simp, by simpa using comment c List.mem_cons_self, here⟩

/- The pieces of a text, and what the scanner says of them. -/
structure Tiled (d : Delimiters) (text : List Char) (tiles : List Token) : Prop where
  inside : ∀ t ∈ tiles, t.kind ≠ .eof ∧ t.position.offset < t.stop ∧ t.stop ≤ text.length
  cut : ∀ t ∈ tiles, Cut d (text.drop t.position.offset) t.kind t.value (t.stop - t.position.offset)
  ordered : tiles.Pairwise (fun t u => t.stop ≤ u.position.offset)
  covered : ∀ i < text.length, ∃ t ∈ tiles, t.position.offset ≤ i ∧ i < t.stop
  apart : ∀ {before after t u}, tiles.filter (·.kind ≠ .comment) = before ++ t :: u :: after →
    t.kind = .text → u.kind = .text → ∃ c ∈ tiles, c.kind = .comment ∧ c.position.offset = t.stop

/- The scanner ends on every text. What it cuts off has no gap and no overlap, with the comments that it
leaves out, and the end of the text stands behind it once; it fails only where nothing closes what was
opened. -/
theorem scanTiles (cased : d.ignoreCase = false) (written : ∀ p ∈ d.named, p.2 ≠ "") (source : String) :
    (∃ tiles last, scan d source =
        .ok (tiles.filter (·.kind ≠ .comment) ++ [⟨.eof, "", last, source.length⟩]) ∧
      last.offset = source.length ∧ Tiled d source.toList tiles) ∨
    ∃ p reason, scan d source = .error (.located p reason) ∧ p.offset < source.length ∧
      Unclosed d (source.toList.drop p.offset) reason := by
  have answers : Answers d source.toList 0 (scan d source) :=
    scannedTiles (p := .start) cased written rfl (Nat.zero_le _)
  cases scanned : scan d source with
  | error e =>
    rw [scanned] at answers
    obtain ⟨p, reason, rfl, inside, unclosed⟩ := answers
    rw [String.length_toList] at inside
    exact .inr ⟨p, reason, rfl, inside, unclosed⟩
  | ok ts =>
    rw [scanned] at answers
    obtain ⟨tiles, last, rfl, ends, tiled⟩ := answers
    rw [String.length_toList] at ends ⊢
    have bounds := (tilesBounds tiled).2
    refine .inl ⟨tiles, last, rfl, ends, ?_, ?_, tilesOrdered tiled, ?_, commentBetween tiled⟩
    · intro t member
      obtain ⟨-, long, inside, cut⟩ := bounds t member
      exact ⟨cutKind cut, long, inside⟩
    · intro t member
      exact (bounds t member).2.2.2
    · intro i below
      exact tilesCover tiled (Nat.zero_le i) below

/- Two texts around a comment, and a delimiter that a longer word keeps from opening. -/
def sampleComment : String := "a$\x7b!-- b --\x7dc$\x7bincludes \x7d"

theorem scanTilesComment : Delimiters.standard.ignoreCase = false ∧ (∀ p ∈ Delimiters.standard.named, p.2 ≠ "") ∧
    ∃ tiles last, scan .standard sampleComment =
        .ok (tiles.filter (·.kind ≠ .comment) ++ [⟨.eof, "", last, sampleComment.length⟩]) ∧
      last.offset = sampleComment.length ∧ Tiled .standard sampleComment.toList tiles := by
  have cased : Delimiters.standard.ignoreCase = false := rfl
  have written : ∀ p ∈ Delimiters.standard.named, p.2 ≠ "" := by decide
  refine ⟨cased, written, ?_⟩
  have scanned : scan .standard sampleComment = .ok [⟨.text, "a", ⟨1, 1, 0⟩, 1⟩, ⟨.text, "c", ⟨1, 13, 12⟩, 13⟩,
      ⟨.output, "includes", ⟨1, 14, 13⟩, 25⟩, ⟨.eof, "", ⟨1, 26, 25⟩, 25⟩] := by cbv
  obtain tiled | ⟨p, reason, failed, -⟩ := scanTiles cased written sampleComment
  · exact tiled
  · rw [scanned] at failed
    cases failed

end Token
end Stencil
