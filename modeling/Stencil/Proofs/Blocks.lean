import Mathlib
import Stencil.Markup.Lexer
import Stencil.Markup.Parser
import Stencil.Text.Identifier

/-! From tokens to trees. Each token does one thing to the blocks that are open; what all of these keep holds
of the tree. A tree that could be read comes of tokens whose blocks are balanced, and its nodes are such as a
directive can stand for. -/
namespace Stencil

namespace Text

theorem dropBlankFront (s : List Char) : ∀ c ∈ (s.dropWhile isBlank).head?, isBlank c = false := by
  intro c first
  have kept := List.head?_dropWhile_not isBlank s
  rw [first] at kept
  exact kept

/- Nothing but blanks goes away. -/
theorem stripNothing {s : List Char} (none : strip s = []) : s.all isBlank = true := by
  have front : (stripFront s).all isBlank = true := by
    simpa [strip, stripBack] using none
  cases kept : s.dropWhile isBlank with
  | nil => simpa using kept
  | cons c rest =>
    have solid := dropBlankFront s c (by simp [kept])
    simp [stripFront, kept, solid] at front

theorem stripEnds {s : List Char} {c : Char} (last : (strip s).getLast? = some c) : isBlank c = false := by
  rw [strip, stripBack, List.getLast?_reverse] at last
  exact dropBlankFront _ c last

theorem stripSolid {s : List Char} (some : strip s ≠ []) : (strip s).all isBlank = false := by
  obtain ⟨c, last⟩ := Option.isSome_iff_exists.mp (List.getLast?_isSome.mpr some)
  rw [List.all_eq_false]
  exact ⟨c, List.mem_of_getLast? last, by simp [stripEnds last]⟩

theorem stripWhole {s : List Char} (first : ∀ c ∈ s.head?, isBlank c = false)
    (last : ∀ c ∈ s.getLast?, isBlank c = false) : strip s = s := by
  have front {s : List Char} (first : ∀ c ∈ s.head?, isBlank c = false) : s.dropWhile isBlank = s := by
    cases s with
    | nil => rfl
    | cons c s => simp [first c rfl]
  rw [strip, stripFront, front first, stripBack, front, List.reverse_reverse]
  rwa [List.head?_reverse]

theorem trimSolid {s : String} (solid : allBlank s = false) : allBlank (trim s) = false := by
  rw [allBlank, trim, String.toList_ofList]
  refine stripSolid fun none => ?_
  rw [allBlank, stripNothing none] at solid
  cases solid

/- What was stripped has no line break at its end. -/
theorem chompStrip (s : List Char) : chompLine (strip s) = strip s := by
  rw [chompLine, if_neg]
  intro ends
  have blank : isBlank '\n' = true := by decide
  rw [stripEnds ends] at blank
  cases blank

/- What can be checked of every ASCII character holds of one. -/
@[elab_as_elim]
theorem asciiForall {P : Char → Prop} (c : Char) (ascii : c.toNat < 128) (all : ∀ n < 128, P (Char.ofNat n)) : P c := by
  have here := all c.toNat ascii
  rwa [Char.ofNat_toNat] at here

theorem asciiBelow {c : Char} (word : isAsciiWord c = true) : c.toNat < 128 := by
  simp only [isAsciiWord, Char.isAlphanum, Char.isAlpha, Char.isUpper, Char.isLower, Char.isDigit,
    Bool.or_eq_true, Bool.and_eq_true, decide_eq_true_eq, beq_iff_eq, UInt32.le_iff_toNat_le,
    ge_iff_le] at word
  rcases word with letter | rfl
  · have code : c.toNat = c.val.toNat := rfl
    have upper : 'Z'.val.toNat = 90 := rfl
    have lower : 'z'.val.toNat = 122 := rfl
    have digit : '9'.val.toNat = 57 := rfl
    omega
  · decide

theorem startWord {c : Char} (start : isAsciiStart c = true) : isAsciiWord c = true := by
  simp only [isAsciiStart, isAsciiWord, Char.isAlphanum, Bool.or_eq_true] at start ⊢
  exact start.imp_left .inl

/- A name in ASCII is a name. -/
theorem asciiIdentifier {s : List Char} (ascii : isAsciiName s = true) : isIdentifier s = true := by
  cases s with
  | nil => cases ascii
  | cons c rest =>
    simp only [isAsciiName, Bool.and_eq_true, List.all_eq_true] at ascii
    obtain ⟨first, others⟩ := ascii
    simp only [isIdentifier, Bool.and_eq_true, List.all_eq_true]
    have start : isAsciiStart c = true → within identifierStartBounds c.toNat = true :=
      asciiForall c (asciiBelow (startWord first)) (by decide +kernel)
    refine ⟨start first, fun d member => ?_⟩
    have word : isAsciiWord d = true → within identifierRestBounds d.toNat = true :=
      asciiForall d (asciiBelow (others d member)) (by decide +kernel)
    exact word (others d member)

end Text

/- A header binds a name in ASCII and tells what to go through. -/
theorem Loop.headerSolid {text name collection : String} (ok : Loop.header text = .ok (name, collection)) :
    Text.allBlank collection = false ∧ Text.isAsciiName name.toList = true := by
  simp only [Loop.header] at ok
  cases cut : Loop.split? (Text.strip text.toList) with
  | none =>
    simp only [cut] at ok
    split at ok
    · cases ok
    · rename_i fine
      cases ok
      simp only [Bool.false_or, Bool.or_eq_true, not_or, List.isEmpty_iff] at fine
      exact ⟨by simpa [Text.allBlank] using Text.stripSolid fine.1, by decide⟩
  | some parts =>
    obtain ⟨before, behind⟩ := parts
    simp only [cut] at ok
    split at ok
    · cases ok
    · rename_i fine
      cases ok
      simp only [Bool.or_eq_true, not_or, List.isEmpty_iff, Node.isLoopName, String.toList_ofList,
        Text.chompStrip] at fine
      obtain ⟨⟨-, some⟩, ascii⟩ := fine
      exact ⟨by simpa [Text.allBlank] using Text.stripSolid some, by simpa using ascii⟩

namespace Node

theorem memAllOf {m : Node} {ns : List Node} : m ∈ allOf ns ↔ ∃ n ∈ ns, m ∈ n.all := by
  induction ns with
  | nil => simp [allOf]
  | cons n ns ih => simp [allOf, ih]

/- What one token does to the nodes of the innermost part and to the blocks that are open. -/
inductive Advances (limits : Limits) (t : Token) :
    List Node → List Open → List Node → List Open → Prop where
  | opening {done blocks part} (kind : t.kind = .conditionalStart ∨ t.kind = .loopStart)
      (ok : opened limits t blocks = .ok part) :
      Advances limits t done blocks [] (⟨part, done⟩ :: blocks)
  | turning {done start before outer} (kind : t.kind = .conditionalElse) :
      Advances limits t done (⟨.thenPart start, before⟩ :: outer) []
        (⟨.elsePart start done.reverse, before⟩ :: outer)
  | closingThen {done start before outer} (kind : t.kind = .conditionalEnd) :
      Advances limits t done (⟨.thenPart start, before⟩ :: outer)
        (.conditional start.position (trimmed start) done.reverse [] :: before) outer
  | closingElse {done start children before outer} (kind : t.kind = .conditionalEnd) :
      Advances limits t done (⟨.elsePart start children, before⟩ :: outer)
        (.conditional start.position (trimmed start) children done.reverse :: before) outer
  | closingLoop {done start name collection before outer} (kind : t.kind = .loopEnd) :
      Advances limits t done (⟨.loopBody start name collection, before⟩ :: outer)
        (.loop start.position name collection done.reverse :: before) outer
  | leaf {done blocks node} (ok : leaf limits t = .ok node) :
      Advances limits t done blocks (node :: done) blocks

variable {limits : Limits} {t : Token} {ts rest : List Token} {done done' nodes : List Node}
  {blocks blocks' : List Open}

theorem readStep (ok : read limits done blocks (t :: rest) = .ok nodes) :
    t.kind = .eof ∧ blocks = [] ∧ nodes = done.reverse ∨
      ∃ done' blocks', Advances limits t done blocks done' blocks' ∧
        read limits done' blocks' rest = .ok nodes := by
  rw [read.eq_def] at ok
  dsimp only at ok
  split at ok
  · rename_i kind
    split at ok
    · cases ok
      exact .inl ⟨kind, rfl, rfl⟩
    · cases ok
  · rename_i kind
    split at ok
    · rename_i part made
      exact .inr ⟨_, _, .opening (.inl kind) made, ok⟩
    · cases ok
  · rename_i kind
    split at ok
    · rename_i part made
      exact .inr ⟨_, _, .opening (.inr kind) made, ok⟩
    · cases ok
  · rename_i kind
    split at ok
    · exact .inr ⟨_, _, .turning kind, ok⟩
    · cases ok
    · cases ok
  · rename_i kind
    split at ok
    · exact .inr ⟨_, _, .closingThen kind, ok⟩
    · exact .inr ⟨_, _, .closingElse kind, ok⟩
    · cases ok
  · rename_i kind
    split at ok
    · exact .inr ⟨_, _, .closingLoop kind, ok⟩
    · cases ok
  all_goals
    split at ok
    · rename_i node made
      exact .inr ⟨_, _, .leaf made, ok⟩
    · cases ok

/- What a directive can stand for. Whether an output may be blank is a matter of the settings. -/
def Proper (limits : Limits) : Node → Prop
  | .text .. | .conditional .. => True
  | .output _ expression => limits.allowEmpty = false → Text.allBlank expression = false
  | .loop _ name collection _ =>
    Text.allBlank collection = false ∧ Text.isAsciiName name.toList = true
  | .inclusion _ name => Text.allBlank name = false
  | .root .. | .foreign .. => False

def ProperAll (limits : Limits) (ns : List Node) : Prop := ∀ m ∈ allOf ns, m.Proper limits

def Part.Proper (limits : Limits) : Part → Prop
  | .thenPart _ => True
  | .elsePart _ children => ProperAll limits children
  | .loopBody _ name collection =>
    Text.allBlank collection = false ∧ Text.isAsciiName name.toList = true

structure Open.Proper (limits : Limits) (o : Open) : Prop where
  part : o.part.Proper limits
  before : ProperAll limits o.before

theorem properNone : ProperAll limits [] := by simp [ProperAll, allOf]

theorem properCons {n : Node} {ns : List Node} :
    ProperAll limits (n :: ns) ↔ (∀ m ∈ n.all, m.Proper limits) ∧ ProperAll limits ns := by
  simp only [ProperAll, allOf, List.mem_append, or_imp, forall_and]

theorem properReverse {ns : List Node} : ProperAll limits ns.reverse ↔ ProperAll limits ns := by
  simp only [ProperAll, memAllOf, List.mem_reverse]

theorem leafProper {node : Node} (ok : leaf limits t = .ok node) : ∀ m ∈ node.all, m.Proper limits := by
  rw [leaf.eq_def] at ok
  split at ok
  · cases ok
    simp [all, Proper]
  · split at ok
    · cases ok
    · rename_i given
      cases ok
      simp only [all, List.mem_singleton, forall_eq, Proper]
      intro refused
      simp only [refused, Bool.not_false, Bool.and_true, Bool.not_eq_true] at given
      exact Text.trimSolid given
  · split at ok
    · cases ok
    · rename_i given
      cases ok
      simp only [all, List.mem_singleton, forall_eq, Proper]
      exact Text.trimSolid (by simpa using given)
  · cases ok

theorem openedProper {part : Part} (ok : opened limits t blocks = .ok part) : part.Proper limits := by
  rw [opened] at ok
  split at ok
  · cases ok
  · split at ok
    · split at ok
      · rename_i header
        cases ok
        exact Loop.headerSolid header
      · cases ok
    · cases ok
      trivial

theorem advancesProper (advances : Advances limits t done blocks done' blocks')
    (inner : ProperAll limits done) (outer : ∀ o ∈ blocks, o.Proper limits) :
    ProperAll limits done' ∧ ∀ o ∈ blocks', o.Proper limits := by
  cases advances with
  | opening _ ok =>
    exact ⟨properNone, List.forall_mem_cons.mpr ⟨⟨openedProper ok, inner⟩, outer⟩⟩
  | turning =>
    obtain ⟨⟨-, before⟩, outer⟩ := List.forall_mem_cons.mp outer
    exact ⟨properNone, List.forall_mem_cons.mpr ⟨⟨properReverse.mpr inner, before⟩, outer⟩⟩
  | closingThen =>
    obtain ⟨⟨-, before⟩, outer⟩ := List.forall_mem_cons.mp outer
    refine ⟨properCons.mpr ⟨?_, before⟩, outer⟩
    simp only [all, allOf, List.append_nil, List.forall_mem_cons]
    exact ⟨trivial, properReverse.mpr inner⟩
  | closingElse =>
    obtain ⟨⟨children, before⟩, outer⟩ := List.forall_mem_cons.mp outer
    refine ⟨properCons.mpr ⟨?_, before⟩, outer⟩
    simp only [all, List.forall_mem_cons, List.forall_mem_append]
    exact ⟨trivial, children, properReverse.mpr inner⟩
  | closingLoop =>
    obtain ⟨⟨header, before⟩, outer⟩ := List.forall_mem_cons.mp outer
    refine ⟨properCons.mpr ⟨?_, before⟩, outer⟩
    simp only [all, List.forall_mem_cons]
    exact ⟨header, properReverse.mpr inner⟩
  | leaf ok => exact ⟨properCons.mpr ⟨leafProper ok, inner⟩, outer⟩

theorem readProper (ok : read limits done blocks ts = .ok nodes) (inner : ProperAll limits done)
    (outer : ∀ o ∈ blocks, o.Proper limits) : ProperAll limits nodes := by
  induction ts generalizing done blocks with
  | nil => cases ok
  | cons t ts ih =>
    obtain ⟨-, -, rfl⟩ | ⟨done', blocks', advances, ok⟩ := readStep ok
    · exact properReverse.mpr inner
    · obtain ⟨inner', outer'⟩ := advancesProper advances inner outer
      exact ih ok inner' outer'

theorem heightAppend (ns ms : List Node) : heightOf (ns ++ ms) = max (heightOf ns) (heightOf ms) := by
  induction ns with
  | nil => simp [heightOf]
  | cons n ns ih => simp [heightOf, ih, max_assoc]

theorem heightReverse (ns : List Node) : heightOf ns.reverse = heightOf ns := by
  induction ns with
  | nil => rfl
  | cons n ns ih =>
    rw [List.reverse_cons, heightAppend, ih]
    simp [heightOf, max_comm]

def Part.children : Part → List Node
  | elsePart _ children => children
  | thenPart _ | loopBody .. => []

/- Under every open block there is room for one level of nodes more than for blocks. -/
def Shallow (limits : Limits) (done : List Node) : List Open → Prop
  | [] => heightOf done ≤ limits.depth.toNat + 1
  | o :: outer =>
    outer.length < limits.depth.toNat ∧ heightOf done + outer.length ≤ limits.depth.toNat ∧
      heightOf o.part.children + outer.length ≤ limits.depth.toNat ∧ Shallow limits o.before outer

theorem shallowRoom (shallow : Shallow limits done blocks) :
    blocks.length ≤ limits.depth.toNat ∧ heightOf done + blocks.length ≤ limits.depth.toNat + 1 := by
  cases blocks with
  | nil => exact ⟨Nat.zero_le _, shallow⟩
  | cons o outer =>
    obtain ⟨room, inner, -, -⟩ := shallow
    simp only [List.length_cons]
    omega

theorem shallowCons {n : Node} (shallow : Shallow limits done blocks)
    (room : n.height + blocks.length ≤ limits.depth.toNat) : Shallow limits (n :: done) blocks := by
  cases blocks with
  | nil =>
    simp only [Shallow, heightOf, List.length_nil] at shallow room ⊢
    omega
  | cons o outer =>
    obtain ⟨fits, inner, children, others⟩ := shallow
    refine ⟨fits, ?_, children, others⟩
    simp only [heightOf, List.length_cons] at room ⊢
    omega

theorem openedRoom {part : Part} (ok : opened limits t blocks = .ok part) :
    blocks.length < limits.depth.toNat ∧ part.children = [] := by
  rw [opened] at ok
  split at ok
  · cases ok
  · rename_i room
    refine ⟨by omega, ?_⟩
    split at ok
    · split at ok
      · cases ok
        rfl
      · cases ok
    · cases ok
      rfl

theorem leafHeight {node : Node} (ok : leaf limits t = .ok node) : node.height = 0 := by
  rw [leaf.eq_def] at ok
  split at ok
  · cases ok
    rfl
  · split at ok
    · cases ok
    · cases ok
      rfl
  · split at ok
    · cases ok
    · cases ok
      rfl
  · cases ok

theorem advancesShallow (advances : Advances limits t done blocks done' blocks')
    (shallow : Shallow limits done blocks) : Shallow limits done' blocks' := by
  have room := shallowRoom shallow
  cases advances with
  | opening _ ok =>
    obtain ⟨fits, none⟩ := openedRoom ok
    refine ⟨fits, ?_, ?_, shallow⟩
    · simp only [heightOf]
      omega
    · simp only [none, heightOf]
      omega
  | turning =>
    obtain ⟨fits, inner, -, outer⟩ := shallow
    refine ⟨fits, ?_, ?_, outer⟩
    · simp only [heightOf]
      omega
    · simpa only [Part.children, heightReverse] using inner
  | closingThen =>
    obtain ⟨-, inner, -, outer⟩ := shallow
    refine shallowCons outer ?_
    simp only [height, heightOf, heightReverse]
    omega
  | closingElse =>
    obtain ⟨-, inner, children, outer⟩ := shallow
    refine shallowCons outer ?_
    simp only [Part.children] at children
    simp only [height, heightReverse]
    omega
  | closingLoop =>
    obtain ⟨-, inner, -, outer⟩ := shallow
    refine shallowCons outer ?_
    simpa only [height, heightReverse] using inner
  | leaf ok =>
    refine shallowCons shallow ?_
    rw [leafHeight ok]
    omega

theorem readShallow (ok : read limits done blocks ts = .ok nodes) (shallow : Shallow limits done blocks) :
    heightOf nodes ≤ limits.depth.toNat + 1 := by
  induction ts generalizing done blocks with
  | nil => cases ok
  | cons t ts ih =>
    obtain ⟨-, rfl, rfl⟩ | ⟨done', blocks', advances, ok⟩ := readStep ok
    · rw [heightReverse]
      exact shallow
    · exact ih ok (advancesShallow advances shallow)

theorem treeRead {tree : Node} (ok : ofTokens limits ts = .ok tree) :
    ∃ nodes, tree = .root .start nodes ∧ read limits [] [] ts = .ok nodes := by
  rw [ofTokens] at ok
  split at ok
  · split at ok
    · rename_i nodes made
      cases ok
      exact ⟨nodes, rfl, made⟩
    · cases ok
  · cases ok

theorem leafKind {node : Node} (ok : leaf limits t = .ok node) :
    t.kind = .text ∨ t.kind = .output ∨ t.kind = .inclusion := by
  rw [leaf.eq_def] at ok
  split at ok
  · exact .inl ‹_›
  · exact .inr (.inl ‹_›)
  · exact .inr (.inr ‹_›)
  · cases ok

theorem openedBlock {part : Part} (ok : opened limits t blocks = .ok part) :
    part.block = if t.kind = .loopStart then .loop else .conditional := by
  rw [opened] at ok
  split at ok
  · cases ok
  · split at ok
    · rename_i loop
      split at ok
      · cases ok
        simp [Part.block, loop]
      · cases ok
    · rename_i other
      cases ok
      simp [Part.block, other]

def openBlocks (kind : BlockKind) (blocks : List Open) : Nat := blocks.countP (·.part.block = kind)

theorem openBlocksCons (kind : BlockKind) (o : Open) (blocks : List Open) :
    openBlocks kind (o :: blocks) = openBlocks kind blocks + if o.part.block = kind then 1 else 0 := by
  simp [openBlocks, List.countP_cons]

end Node

namespace Token

/- The counts are those of the blocks that are open, and nothing has been found wrong. -/
structure Balance.Counts (b : Balance) (blocks : List Node.Open) : Prop where
  conditionals : b.conditionals = Node.openBlocks .conditional blocks
  loops : b.loops = Node.openBlocks .loop blocks
  errors : b.errors = []

variable {limits : Limits} {t : Token} {ts : List Token} {done done' nodes : List Node}
  {blocks blocks' : List Node.Open} {b : Balance}

theorem countsStep (advances : Node.Advances limits t done blocks done' blocks')
    (counts : b.Counts blocks) : (b.step t).Counts blocks' := by
  obtain ⟨conditionals, loops, errors⟩ := counts
  cases advances with
  | opening kind ok =>
    have block := Node.openedBlock ok
    rcases kind with kind | kind <;>
      constructor <;> simp [Balance.step, kind, block, Node.openBlocksCons, conditionals, loops, errors]
  | turning kind =>
    simp only [Node.openBlocksCons, Node.Part.block] at conditionals loops
    constructor <;> simp [Balance.step, kind, Node.openBlocksCons, Node.Part.block, conditionals, loops, errors]
  | closingThen kind | closingElse kind | closingLoop kind =>
    simp only [Node.openBlocksCons, Node.Part.block] at conditionals loops
    constructor <;> simp [Balance.step, kind, conditionals, loops, errors]
  | leaf ok =>
    rcases Node.leafKind ok with kind | kind | kind <;>
      constructor <;> simp [Balance.step, kind, conditionals, loops, errors]

theorem readBalanced (ok : Node.read limits done blocks ts = .ok nodes)
    (ends : ∀ t ∈ ts.dropLast, t.kind ≠ .eof) (counts : b.Counts blocks) :
    (ts.foldl Balance.step b).report = [] := by
  induction ts generalizing done blocks b with
  | nil => cases ok
  | cons t ts ih =>
    obtain ⟨kind, rfl, -⟩ | ⟨done', blocks', advances, ok⟩ := Node.readStep ok
    · have last : ts = [] := by
        cases ts with
        | nil => rfl
        | cons u ts => exact absurd kind (ends t (by simp))
      obtain ⟨conditionals, loops, errors⟩ := counts
      simp [last, Balance.step, kind, Balance.report, conditionals, loops, errors, Node.openBlocks]
    · refine ih ok (fun u member => ends u ?_) (countsStep advances counts)
      cases ts with
      | nil => simp at member
      | cons v ts => exact List.mem_cons_of_mem _ member

theorem openerKind {d : Delimiters} {o : Opener} (member : o ∈ d.openers) : o.kind ≠ .eof := by
  simp only [Delimiters.openers, List.mem_mergeSort, List.map_cons, List.map_nil, List.mem_cons,
    List.not_mem_nil, or_false] at member
  rcases member with rfl | rfl | rfl | rfl | rfl | rfl | rfl | rfl <;> simp

theorem directiveKind {d : Delimiters} {o : Opener} {s : List Char} {piece : Piece}
    (ok : directive d o s = .ok piece) : piece.kind = o.kind := by
  simp only [directive] at ok
  split at ok
  · cases ok
    rfl
  · cases ok
    rfl
  · cases ok
    rfl
  all_goals
    split at ok
    · cases ok
      simp [*]
    · cases ok

theorem pieceKind {d : Delimiters} {c : Char} {rest : List Char} {p : Piece}
    (ok : piece d d.openers c rest = .ok p) : p.kind ≠ .eof := by
  rw [piece] at ok
  split at ok
  · rename_i o found
    rw [directiveKind ok]
    exact openerKind (List.mem_of_find?_eq_some found)
  · cases ok
    simp

/- A scan that succeeds takes one piece and goes on behind it. Comments are no tokens. -/
theorem scanStep {d : Delimiters} {os : List Opener} {p : Position} {c : Char} {rest : List Char}
    (scanned : scanFrom d os p (c :: rest) = .ok ts) :
    ∃ x others, piece d os c rest = .ok x ∧
      scanFrom d os (p.advanceOver ((c :: rest).take x.length)) (rest.drop (x.length - 1)) = .ok others ∧
      ts = if x.kind = .comment then others else ⟨x.kind, x.value, p, p.offset + x.length⟩ :: others := by
  rw [scanFrom] at scanned
  split at scanned
  · cases scanned
  · rename_i x made
    simp only at scanned
    split at scanned
    · cases scanned
    · rename_i others found
      refine ⟨x, others, made, found, ?_⟩
      split at scanned <;> rename_i kind
      · rw [if_pos kind]
        exact (Except.ok.inj scanned).symm
      · rw [if_neg kind]
        exact (Except.ok.inj scanned).symm

/- Only the last token is the end. -/
theorem scanEnds {d : Delimiters} {p : Position} {s : List Char}
    (ok : scanFrom d d.openers p s = .ok ts) : ∀ t ∈ ts.dropLast, t.kind ≠ .eof := by
  fun_induction scanFrom d d.openers p s generalizing ts with
  | case1 =>
    cases ok
    simp
  | case2 => cases ok
  | case3 => cases ok
  | case4 p c rest piece made next ts' others comment =>
    rename_i ih
    cases ok
    exact ih others
  | case5 p c rest piece made next ts' others plain =>
    rename_i ih
    cases ok
    intro t member
    cases ts' with
    | nil => simp at member
    | cons u ts' =>
      rcases List.mem_cons.mp member with rfl | later
      · exact pieceKind made
      · exact ih others t later

theorem scanBalanced {d : Delimiters} {text : String} {tree : Node} (scanned : scan d text = .ok ts)
    (ok : Node.ofTokens limits ts = .ok tree) : balanceErrors ts = [] := by
  obtain ⟨nodes, -, made⟩ := Node.treeRead ok
  exact readBalanced made (scanEnds scanned) ⟨rfl, rfl, rfl⟩

end Token
end Stencil
