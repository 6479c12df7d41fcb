import Stencil.Proofs.Derivation
import Stencil.Proofs.Steps
import Stencil.Proofs.Tiling
import Stencil.Proofs.Translation

/-! Where things stand. Lines and columns are counted character by character, and come out as if each had been
counted from the start of the text; a node and an instruction stand where the token stands that they began
with. -/
namespace Stencil

namespace Position

/- The line that a place is in begins at `start`: behind the last line break before the place. -/
structure LineStarts (text : List Char) (offset start : Nat) : Prop where
  before : start ≤ offset
  begins : start = 0 ∨ 0 < start ∧ text[start - 1]? = some '\n'
  unbroken : ∀ i, start ≤ i → i < offset → text[i]? ≠ some '\n'

structure Exact (text : List Char) (p : Position) : Prop where
  inside : p.offset ≤ text.length
  line : p.line = 1 + (text.take p.offset).count '\n'
  column : ∃ start, LineStarts text p.offset start ∧ p.column = p.offset - start + 1

/- The place was counted off from the start of the text. -/
def Counted (text : List Char) (p : Position) : Prop :=
  p.offset ≤ text.length ∧ p = start.advanceOver (text.take p.offset)

theorem startCounted (text : List Char) : start.Counted text := ⟨Nat.zero_le _, rfl⟩

variable {text : List Char} {p : Position}

theorem advanceOne (p : Position) (c : Char) (s : List Char) :
    (p.advanceOver (s ++ [c])) = (p.advanceOver s).advance c := by
  rw [advanceOver_append]
  rfl

theorem Counted.moves {n : Nat} (counted : p.Counted text) (inside : p.offset + n ≤ text.length) :
    (p.advanceOver ((text.drop p.offset).take n)).Counted text := by
  obtain ⟨-, same⟩ := counted
  have moved : p.advanceOver ((text.drop p.offset).take n) = start.advanceOver (text.take (p.offset + n)) := by
    conv_lhs => rw [same]
    rw [← advanceOver_append, ← same, List.take_add]
  have offset : (start.advanceOver (text.take (p.offset + n))).offset = p.offset + n := by
    rw [offset_advanceOver, List.length_take, Nat.min_eq_left inside]
    exact Nat.zero_add _
  rw [moved]
  refine ⟨?_, by rw [offset]⟩
  rw [offset]
  exact inside

theorem countedColumn (s rest : List Char) :
    ∃ begins, LineStarts (s ++ rest) s.length begins ∧ (start.advanceOver s).column = s.length - begins + 1 := by
  induction s using List.reverseRecOn generalizing rest with
  | nil => exact ⟨0, ⟨Nat.le_refl _, .inl rfl, fun i _ below => absurd below (Nat.not_lt_zero i)⟩, rfl⟩
  | append_singleton s c ih =>
    rw [advanceOne, advance, List.append_assoc, List.length_append]
    have here : (s ++ ([c] ++ rest))[s.length]? = some c := by simp
    by_cases broken : c = '\n'
    · subst broken
      refine ⟨s.length + 1, ⟨Nat.le_refl _, .inr ⟨Nat.succ_pos _, here⟩, by simp; omega⟩, ?_⟩
      simp
    · obtain ⟨begins, ⟨before, first, unbroken⟩, column⟩ := ih ([c] ++ rest)
      refine ⟨begins, ⟨Nat.le_succ_of_le before, first, ?_⟩, ?_⟩
      · intro i after below
        by_cases last : i = s.length
        · rw [last, here]
          exact fun same => broken (Option.some.inj same)
        · exact unbroken i after (by simp at below; omega)
      · rw [if_neg broken, column]
        simp
        omega

theorem Counted.exact (counted : p.Counted text) : p.Exact text := by
  obtain ⟨inside, same⟩ := counted
  have length : (text.take p.offset).length = p.offset := by
    rw [List.length_take, Nat.min_eq_left inside]
  obtain ⟨begins, starts, column⟩ := countedColumn (text.take p.offset) (text.drop p.offset)
  rw [List.take_append_drop, length] at starts
  rw [length, ← same] at column
  refine ⟨inside, ?_, begins, starts, column⟩
  have line := line_advanceOver start (text.take p.offset)
  rw [← same] at line
  exact line

end Position

namespace Token

variable {d : Delimiters} {s text : List Char}

/- Every step of the scanner starts from a place that was counted off, also the one that fails. -/
theorem scannedCounted {p : Position} (cased : d.ignoreCase = false) (written : ∀ q ∈ d.named, q.2 ≠ "")
    (here : s = text.drop p.offset) (counted : p.Counted text) :
    match scanFrom d d.openers p s with
    | .ok ts => ∀ t ∈ ts, t.position.Counted text
    | .error e => ∃ q reason, e = .located q reason ∧ q.Counted text ∧ Unclosed d (text.drop q.offset) reason := by
  have step {c : Char} {rest : List Char} {p : Position} {x : Piece} (here : c :: rest = text.drop p.offset)
      (counted : p.Counted text) (made : piece d d.openers c rest = .ok x) :
      rest.drop (x.length - 1) = text.drop (p.advanceOver ((c :: rest).take x.length)).offset ∧
        (p.advanceOver ((c :: rest).take x.length)).Counted text := by
    obtain ⟨-, -, inside, moved, others⟩ := stepTaken cased written here made
    rw [moved]
    exact ⟨others, here ▸ counted.moves inside⟩
  fun_induction scanFrom d d.openers p s with
  | case1 p => simpa using counted
  | case2 p c rest reason failed =>
    obtain ⟨x, made, -⟩ | ⟨reason', made, unclosed⟩ := pieceCut c rest cased written
    · rw [made] at failed
      cases failed
    · rw [made] at failed
      cases failed
      exact ⟨p, reason, rfl, counted, here ▸ unclosed⟩
  | case3 p c rest x made next e failed ih =>
    obtain ⟨others, moved⟩ := step here counted made
    have ended := ih others moved
    rw [failed] at ended
    exact ended
  | case4 p c rest x made next ts scanned comment ih =>
    obtain ⟨others, moved⟩ := step here counted made
    have ended := ih others moved
    rw [scanned] at ended
    exact ended
  | case5 p c rest x made next ts scanned solid ih =>
    obtain ⟨others, moved⟩ := step here counted made
    have ended := ih others moved
    rw [scanned] at ended
    exact List.forall_mem_cons.mpr ⟨counted, ended⟩

end Token

/- What begins a node, and where. -/
structure Mark where
  kind : TokenKind
  position : Position

/- The tokens that begin a node; the others turn or close a block. -/
def Token.Begins (t : Token) : Prop :=
  t.kind = .text ∨ t.kind = .output ∨ t.kind = .conditionalStart ∨ t.kind = .loopStart ∨ t.kind = .inclusion

instance (t : Token) : Decidable t.Begins := inferInstanceAs (Decidable (_ ∨ _ ∨ _ ∨ _ ∨ _))

def Token.mark (t : Token) : Mark := ⟨t.kind, t.position⟩

/- The marks that tokens make, in their order. -/
def Token.marks (ts : List Token) : List Mark := (ts.filter (·.Begins)).map mark

namespace Node

/- The mark of a node that a directive or a text stands for. -/
def mark? : Node → Option Mark
  | .text p _ => some ⟨.text, p⟩
  | .output p _ => some ⟨.output, p⟩
  | .conditional p _ _ _ => some ⟨.conditionalStart, p⟩
  | .loop p _ _ _ => some ⟨.loopStart, p⟩
  | .inclusion p _ => some ⟨.inclusion, p⟩
  | .root .. | .foreign .. => none

def marks (ns : List Node) : List (Option Mark) := (allOf ns).map mark?

theorem allOfCons (n : Node) (ns : List Node) : allOf (n :: ns) = n.all ++ allOf ns := by
  rw [allOf]

theorem marksAppend (ns ms : List Node) : marks (ns ++ ms) = marks ns ++ marks ms := by
  induction ns with
  | nil => rfl
  | cons n ns ih =>
    simp only [marks, List.cons_append, allOfCons, List.map_append] at ih ⊢
    rw [ih, List.append_assoc]

def Part.marks : Part → List (Option Mark)
  | .thenPart start => [some ⟨.conditionalStart, start.position⟩]
  | .elsePart start children => some ⟨.conditionalStart, start.position⟩ :: Node.marks children
  | .loopBody start _ _ => [some ⟨.loopStart, start.position⟩]

/- The marks of what is read so far, blocks that are still open included. -/
def openMarks (done : List Node) : List Open → List (Option Mark)
  | [] => marks done.reverse
  | o :: outer => openMarks o.before outer ++ o.part.marks ++ marks done.reverse

variable {limits : Limits} {t : Token} {ts : List Token} {done done' nodes : List Node} {blocks blocks' : List Open}

theorem openMarksCons (n : Node) (done : List Node) (blocks : List Open) :
    openMarks (n :: done) blocks = openMarks done blocks ++ marks [n] := by
  cases blocks <;> simp [openMarks, marksAppend]

theorem leafMarks {n : Node} (ok : leaf limits t = .ok n) : t.Begins ∧ marks [n] = [some t.mark] := by
  unfold leaf at ok
  split at ok
  · rename_i kind
    cases ok
    exact ⟨.inl kind, by simp [marks, allOf, all, mark?, Token.mark, kind]⟩
  · rename_i kind
    split at ok
    · cases ok
    · cases ok
      exact ⟨.inr (.inl kind), by simp [marks, allOf, all, mark?, Token.mark, kind]⟩
  · rename_i kind
    split at ok
    · cases ok
    · cases ok
      exact ⟨.inr (.inr (.inr (.inr kind))), by simp [marks, allOf, all, mark?, Token.mark, kind]⟩
  · cases ok

theorem advancesMarks (advances : Advances limits t done blocks done' blocks') :
    openMarks done' blocks' = openMarks done blocks ++ (Token.marks [t]).map some := by
  have silent (closes : ¬ t.Begins) : (Token.marks [t]).map some = [] := by simp [Token.marks, closes]
  have noted (begins : t.Begins) : (Token.marks [t]).map some = [some t.mark] := by simp [Token.marks, begins]
  cases advances with
  | opening kind ok =>
    have begins : t.Begins := by
      cases kind with
      | inl conditional => exact .inr (.inr (.inl conditional))
      | inr loop => exact .inr (.inr (.inr (.inl loop)))
    rw [noted begins]
    obtain ⟨-, ⟨noLoop, rfl⟩ | ⟨name, collection, loop, -, rfl⟩⟩ := openedOk ok
    · simp [openMarks, Part.marks, Token.mark, kind.resolve_right noLoop, marks, allOf]
    · simp [openMarks, Part.marks, Token.mark, loop, marks, allOf]
  | turning kind =>
    rw [silent (by simp [Token.Begins, kind])]
    simp [openMarks, Part.marks, marks, allOf]
  | closingThen kind =>
    rw [silent (by simp [Token.Begins, kind]), openMarksCons]
    simp [openMarks, Part.marks, marks, allOf, all, mark?]
  | closingElse kind =>
    rw [silent (by simp [Token.Begins, kind]), openMarksCons]
    simp [openMarks, Part.marks, marks, allOf, all, mark?]
  | closingLoop kind =>
    rw [silent (by simp [Token.Begins, kind]), openMarksCons]
    simp [openMarks, Part.marks, marks, allOf, all, mark?]
  | leaf ok =>
    obtain ⟨begins, same⟩ := leafMarks ok
    rw [openMarksCons, noted begins, same]

theorem readMarks (ok : read limits done blocks ts = .ok nodes) (only : ∀ t ∈ ts.dropLast, t.kind ≠ .eof) :
    marks nodes = openMarks done blocks ++ (Token.marks ts).map some := by
  induction ts generalizing done blocks with
  | nil => cases ok
  | cons t ts ih =>
    obtain ⟨ends, rfl, rfl⟩ | ⟨done', blocks', advances, ok⟩ := readStep ok
    · have last : ts = [] := by
        cases ts with
        | nil => rfl
        | cons u ts => exact absurd ends (only t (by simp))
      simp [last, openMarks, Token.marks, Token.Begins, ends]
    · have others := ih ok fun u member => only u (by
        cases ts with
        | nil => simp at member
        | cons v ts => exact List.mem_cons_of_mem _ member)
      have split : Token.marks (t :: ts) = Token.marks [t] ++ Token.marks ts := by
        rw [Token.marks, ← List.singleton_append, List.filter_append, List.map_append]
        rfl
      rw [others, advancesMarks advances, split, List.map_append, List.append_assoc]

/- The node stands for what the token began, and where the token stands. -/
def BegunBy (n : Node) (t : Token) : Prop := n.mark? = some t.mark

/- The nodes of a tree, but for its root, come one for one from the tokens that begin something. -/
theorem treeMarks {tree : Node} (ok : ofTokens limits ts = .ok tree) (only : ∀ t ∈ ts.dropLast, t.kind ≠ .eof) :
    tree.all.tail.map mark? = (Token.marks ts).map some := by
  obtain ⟨nodes, rfl, made⟩ := treeRead ok
  exact readMarks made only

end Node

namespace Instruction

def kind? : Instruction → Option TokenKind
  | .text _ => some .text
  | .emit .. => some .output
  | .branch .. => some .conditionalStart
  | .iterate .. => some .loopStart
  | .inclusion .. => some .inclusion
  | .foreign _ => none

def position? : Instruction → Option Position
  | .emit p _ _ _ | .branch p _ _ _ | .iterate p _ _ _ | .inclusion p _ => some p
  | .text _ | .foreign _ => none

/- The instruction does what the mark began; if it has a position, it is that of the mark. -/
def Bears (i : Instruction) (m : Mark) : Prop := i.kind? = some m.kind ∧ ∀ p ∈ i.position?, p = m.position

def BegunBy (i : Instruction) (t : Token) : Prop := i.Bears t.mark

end Instruction

namespace Procedure

open Instruction

variable {env : Registry} {k : Gathered}

def Matches (i : Instruction) (m : Option Mark) : Prop := ∃ mark, m = some mark ∧ i.Bears mark

mutual

theorem translatesMarked {bound : List String} {n : Node} {i : Instruction} (made : Translates env k bound n i) :
    List.Forall₂ Matches i.all (n.all.map Node.mark?) := by
  cases made with
  | text | output | inclusion =>
    exact .cons ⟨_, rfl, rfl, by simp [position?]⟩ .nil
  | conditional _ _ first second =>
    rw [Instruction.all, Node.all, List.map_cons, List.map_append]
    exact .cons ⟨_, rfl, rfl, by simp [position?]⟩
      (List.rel_append (translatesAllMarked first) (translatesAllMarked second))
  | loop _ _ inner =>
    rw [Instruction.all, Node.all, List.map_cons]
    exact .cons ⟨_, rfl, rfl, by simp [position?]⟩ (translatesAllMarked inner)

theorem translatesAllMarked {bound : List String} {ns : List Node} {is : List Instruction}
    (made : TranslatesAll env k bound ns is) : List.Forall₂ Matches (allOf is) (Node.marks ns) := by
  cases made with
  | nil => exact .nil
  | cons first others =>
    rw [allOf, Node.marks, Node.allOfCons, List.map_append]
    exact List.rel_append (translatesMarked first) (translatesAllMarked others)

end

end Procedure

/- Every token stands where its line and column say, and what is not closed is reported where it was opened.
The nodes of the tree and the instructions come one for one from the tokens that begin something, in their order
and with their positions. -/
theorem Token.placesExact {d : Delimiters} (cased : d.ignoreCase = false) (written : ∀ p ∈ d.named, p.2 ≠ "")
    (source : String) :
    match scan d source with
    | .error e => ∃ p reason, e = .located p reason ∧ p.Exact source.toList ∧
        Unclosed d (source.toList.drop p.offset) reason
    | .ok tokens => (∀ t ∈ tokens, t.position.Exact source.toList) ∧
        ∀ limits tree, Node.ofTokens limits tokens = .ok tree →
          List.Forall₂ Node.BegunBy tree.all.tail (tokens.filter (·.Begins)) ∧
          ∀ env c, Procedure.compile env tree = .ok c →
            List.Forall₂ Instruction.BegunBy (Instruction.allOf c.procedure.instructions)
              (tokens.filter (·.Begins)) := by
  have counted := scannedCounted (s := source.toList) cased written rfl (Position.startCounted source.toList)
  rw [← scan] at counted
  cases scanned : scan d source with
  | error e =>
    rw [scanned] at counted
    obtain ⟨p, reason, rfl, here, unclosed⟩ := counted
    exact ⟨p, reason, rfl, here.exact, unclosed⟩
  | ok tokens =>
    rw [scanned] at counted
    refine ⟨fun t member => (counted t member).exact, ?_⟩
    intro limits tree read
    have marks := Node.treeMarks read (scanEnds scanned)
    have begun : List.Forall₂ Node.BegunBy tree.all.tail (tokens.filter (·.Begins)) := by
      rw [← List.forall₂_eq_eq_eq, Token.marks, List.map_map, List.forall₂_map_left_iff,
        List.forall₂_map_right_iff] at marks
      exact marks
    refine ⟨begun, ?_⟩
    intro env c compiled
    obtain ⟨p, children, k, rfl, -, -, made⟩ := Procedure.compiled compiled
    have matched := Procedure.translatesAllMarked made
    rw [Node.marks] at matched
    have whole : (Node.root p children).all.tail = Node.allOf children := rfl
    rw [whole] at marks
    rw [marks, Token.marks, List.map_map, List.forall₂_map_right_iff] at matched
    refine matched.imp ?_
    intro i t paired
    obtain ⟨mark, same, bears⟩ := paired
    cases same
    exact bears

namespace Token

/- A block over two lines, behind a comment that takes up a line break. -/
def sampleLines : String := "a\n$\x7b!-- b\n --\x7d  $\x7b#if x\x7d\n$\x7by\x7d$\x7b/if\x7d"

def sampleLinesTokens : List Token := [⟨.text, "a\n", ⟨1, 1, 0⟩, 2⟩, ⟨.text, "  ", ⟨3, 5, 14⟩, 16⟩,
  ⟨.conditionalStart, "x", ⟨3, 7, 16⟩, 24⟩, ⟨.text, "\n", ⟨3, 15, 24⟩, 25⟩, ⟨.output, "y", ⟨4, 1, 25⟩, 29⟩,
  ⟨.conditionalEnd, "", ⟨4, 5, 29⟩, 35⟩, ⟨.eof, "", ⟨4, 11, 35⟩, 35⟩]

def sampleLinesTree : Node := .root .start [.text ⟨1, 1, 0⟩ "a\n", .text ⟨3, 5, 14⟩ "  ",
  .conditional ⟨3, 7, 16⟩ "x" [.text ⟨3, 15, 24⟩ "\n", .output ⟨4, 1, 25⟩ "y"] []]

theorem sampleLinesScanned : scan .standard sampleLines = .ok sampleLinesTokens := by cbv

theorem sampleLinesRead : Node.ofTokens .standard sampleLinesTokens = .ok sampleLinesTree := by cbv

theorem sampleLinesCompiled : Procedure.compile .empty sampleLinesTree = .ok ⟨⟨[.text "a\n", .text "  ",
    .branch ⟨3, 7, 16⟩ (.path "x") [.text "\n", .emit ⟨4, 1, 25⟩ "y" (.path "y") []] []], [], 0⟩, ["x", "y"]⟩ := by
  cbv

theorem placesExactLines : Delimiters.standard.ignoreCase = false ∧ (∀ p ∈ Delimiters.standard.named, p.2 ≠ "") ∧
    scan .standard sampleLines = .ok sampleLinesTokens ∧
    (∀ t ∈ sampleLinesTokens, t.position.Exact sampleLines.toList) ∧
    Node.ofTokens .standard sampleLinesTokens = .ok sampleLinesTree ∧
    List.Forall₂ Node.BegunBy sampleLinesTree.all.tail (sampleLinesTokens.filter (·.Begins)) ∧
    ∃ c, Procedure.compile .empty sampleLinesTree = .ok c ∧
      List.Forall₂ Instruction.BegunBy (Instruction.allOf c.procedure.instructions)
        (sampleLinesTokens.filter (·.Begins)) := by
  have cased : Delimiters.standard.ignoreCase = false := rfl
  have written : ∀ p ∈ Delimiters.standard.named, p.2 ≠ "" := by decide
  have placed := placesExact cased written sampleLines
  rw [sampleLinesScanned] at placed
  obtain ⟨exact, begun⟩ := placed
  obtain ⟨nodes, instructions⟩ := begun _ _ sampleLinesRead
  exact ⟨cased, written, sampleLinesScanned, exact, sampleLinesRead, nodes, _, sampleLinesCompiled,
    instructions _ _ sampleLinesCompiled⟩

end Token
end Stencil
