import Stencil.Proofs.Blocks

/-! The grammar of blocks, apart from any way of reading it. Tokens can be read as a tree just if the grammar
derives them with no more blocks open at once than the limit allows. The tree keeps the order and the kinds of
all tokens, and of those that begin a node what they say and where they stand; how a header was spelled, the
blanks around a value and the places of the tokens that close a block are lost. -/
namespace Stencil

namespace Token

/- A token that is a node by itself. -/
def Single (limits : Limits) (t : Token) : Prop :=
  t.kind = .text ∨
    t.kind = .output ∧ (limits.allowEmpty = true ∨ Text.allBlank t.value = false) ∨
    t.kind = .inclusion ∧ Text.allBlank t.value = false

/- Nodes one after the other, where `depth` blocks are open around them. -/
inductive Nodes (limits : Limits) : Nat → List Token → Prop where
  | nil {depth} : Nodes limits depth []
  | single {depth t ts} (single : t.Single limits) (others : Nodes limits depth ts) :
      Nodes limits depth (t :: ts)
  | conditional {depth : Nat} {start body stop ts} (begins : start.kind = .conditionalStart)
      (room : (depth : Int) < limits.depth) (inner : Nodes limits (depth + 1) body)
      (ends : stop.kind = .conditionalEnd) (others : Nodes limits depth ts) :
      Nodes limits depth (start :: body ++ stop :: ts)
  | alternative {depth : Nat} {start body turn otherwise stop ts} (begins : start.kind = .conditionalStart)
      (room : (depth : Int) < limits.depth) (inner : Nodes limits (depth + 1) body)
      (turns : turn.kind = .conditionalElse) (second : Nodes limits (depth + 1) otherwise)
      (ends : stop.kind = .conditionalEnd) (others : Nodes limits depth ts) :
      Nodes limits depth (start :: body ++ turn :: otherwise ++ stop :: ts)
  | loop {depth : Nat} {start body stop ts name collection} (begins : start.kind = .loopStart)
      (header : Loop.header start.value = .ok (name, collection))
      (room : (depth : Int) < limits.depth) (inner : Nodes limits (depth + 1) body)
      (ends : stop.kind = .loopEnd) (others : Nodes limits depth ts) :
      Nodes limits depth (start :: body ++ stop :: ts)

end Token

/- What a tree keeps of a token. -/
structure Stamp where
  kind : TokenKind
  words : List String
  position : Option Position
  deriving DecidableEq, Repr

namespace Stamp

/- A token that begins no node. -/
def closer (kind : TokenKind) : Stamp := ⟨kind, [], none⟩

/- Leaves out each `else` with nothing behind it in its block. -/
def compact : List Stamp → List Stamp
  | [] => []
  | s :: rest =>
    if s.kind = .conditionalElse ∧ rest.head?.map (·.kind) = some .conditionalEnd then compact rest
    else s :: compact rest

theorem compactKept {s : Stamp} (kept : s.kind ≠ .conditionalElse) (rest : List Stamp) :
    compact (s :: rest) = s :: compact rest := by
  simp [compact, kept]

end Stamp

/- The name that a header binds and what is gone through, however they are spelled. -/
def Loop.words (header : String) : List String :=
  match Loop.header header with
  | .ok (name, collection) => [name, collection]
  | .error _ => []

def Token.stamp (t : Token) : Stamp :=
  match t.kind with
  | .text => ⟨.text, [t.value], some t.position⟩
  | .loopStart => ⟨.loopStart, Loop.words t.value, some t.position⟩
  | .conditionalElse | .conditionalEnd | .loopEnd | .eof => .closer t.kind
  | kind => ⟨kind, [Node.trimmed t], some t.position⟩

theorem Token.stampKind (t : Token) : t.stamp.kind = t.kind := by
  rw [stamp.eq_def]
  split <;> simp_all [Stamp.closer]

namespace Node

mutual

/- The tree as the tokens that it was made of, in the order of the document. -/
def stamps (n : Node) : List Stamp :=
  match n with
  | .text p s => [⟨.text, [s], some p⟩]
  | .output p expression => [⟨.output, [expression], some p⟩]
  | .inclusion p name => [⟨.inclusion, [name], some p⟩]
  | .conditional p condition children otherwise =>
    ⟨.conditionalStart, [condition], some p⟩ :: stampsOf children ++
      (if otherwise.isEmpty then [] else .closer .conditionalElse :: stampsOf otherwise) ++
      [.closer .conditionalEnd]
  | .loop p name collection children =>
    ⟨.loopStart, [name, collection], some p⟩ :: stampsOf children ++ [.closer .loopEnd]
  | .root _ children => stampsOf children ++ [.closer .eof]
  | .foreign .. => []
termination_by structural n

def stampsOf (ns : List Node) : List Stamp :=
  match ns with
  | [] => []
  | n :: ns => stamps n ++ stampsOf ns
termination_by structural ns

end

variable {limits : Limits} {depth : Nat} {t : Token} {ts us : List Token} {done done' nodes : List Node}
  {blocks blocks' : List Open}

theorem singleLeaf (single : t.Single limits) :
    ∃ n, leaf limits t = .ok n ∧ stamps n = [t.stamp] ∧ t.kind ≠ .conditionalElse ∧
      t.kind ≠ .conditionalEnd := by
  rcases single with kind | ⟨kind, allowed | solid⟩ | ⟨kind, solid⟩
  · exact ⟨.text t.position t.value, by simp [leaf, kind], by simp [stamps, Token.stamp, kind], by simp [kind],
      by simp [kind]⟩
  · exact ⟨.output t.position (trimmed t), by simp [leaf, kind, allowed],
      by simp [stamps, Token.stamp, kind], by simp [kind], by simp [kind]⟩
  · exact ⟨.output t.position (trimmed t), by simp [leaf, kind, solid],
      by simp [stamps, Token.stamp, kind], by simp [kind], by simp [kind]⟩
  · exact ⟨.inclusion t.position (trimmed t), by simp [leaf, kind, solid],
      by simp [stamps, Token.stamp, kind], by simp [kind], by simp [kind]⟩

theorem leafSingle {n : Node} (ok : leaf limits t = .ok n) : t.Single limits := by
  rw [leaf.eq_def] at ok
  split at ok
  · exact .inl ‹_›
  · rename_i kind
    split at ok
    · cases ok
    · rename_i given
      refine .inr (.inl ⟨kind, ?_⟩)
      cases allowed : limits.allowEmpty with
      | true => exact .inl rfl
      | false => exact .inr (by simpa [allowed] using given)
  · rename_i kind
    split at ok
    · cases ok
    · rename_i given
      exact .inr (.inr ⟨kind, by simpa using given⟩)
  · cases ok

/- Every step that a token can make is made. -/
theorem advancesRead (advances : Advances limits t done blocks done' blocks') (rest : List Token) :
    read limits done blocks (t :: rest) = read limits done' blocks' rest := by
  cases advances with
  | opening kind ok => rcases kind with kind | kind <;> simp [read, kind, ok]
  | turning kind | closingThen kind | closingElse kind | closingLoop kind => simp [read, kind]
  | leaf ok => rcases leafKind ok with kind | kind | kind <;> simp [read, kind, ok]

theorem openedConditional (begins : t.kind = .conditionalStart) (room : (blocks.length : Int) < limits.depth) :
    opened limits t blocks = .ok (.thenPart t) := by
  simp [opened, Int.not_le.mpr room, begins]

theorem openedLoop {name collection : String} (begins : t.kind = .loopStart)
    (header : Loop.header t.value = .ok (name, collection)) (room : (blocks.length : Int) < limits.depth) :
    opened limits t blocks = .ok (.loopBody t name collection) := by
  simp [opened, Int.not_le.mpr room, begins, header]

/- Reading `ts` where `depth` blocks are open adds `ns` to the innermost part and does nothing else. -/
def Yields (limits : Limits) (depth : Nat) (ts : List Token) (ns : List Node) : Prop :=
  ∀ done blocks rest, blocks.length = depth →
    read limits done blocks (ts ++ rest) = read limits (ns.reverse ++ done) blocks rest

namespace Yields

variable {body otherwise rest : List Token} {children second ns : List Node} {start turn stop : Token}

theorem single {n : Node} (ok : leaf limits t = .ok n) (others : Yields limits depth ts ns) :
    Yields limits depth (t :: ts) (n :: ns) := by
  intro done blocks rest open_
  rw [List.cons_append, advancesRead (.leaf ok), others _ _ _ open_]
  simp

theorem conditional (begins : start.kind = .conditionalStart) (room : (depth : Int) < limits.depth)
    (inner : Yields limits (depth + 1) body children) (ends : stop.kind = .conditionalEnd)
    (others : Yields limits depth ts ns) :
    Yields limits depth (start :: body ++ stop :: ts)
      (.conditional start.position (trimmed start) children [] :: ns) := by
  intro done blocks rest open_
  have enters := openedConditional begins (open_ ▸ room)
  rw [List.append_assoc, List.cons_append, List.cons_append, advancesRead (.opening (.inl begins) enters),
    inner _ _ _ (by simp [open_]), advancesRead (.closingThen ends), others _ _ _ open_]
  simp

theorem alternative (begins : start.kind = .conditionalStart) (room : (depth : Int) < limits.depth)
    (inner : Yields limits (depth + 1) body children) (turns : turn.kind = .conditionalElse)
    (next : Yields limits (depth + 1) otherwise second) (ends : stop.kind = .conditionalEnd)
    (others : Yields limits depth ts ns) :
    Yields limits depth (start :: body ++ turn :: otherwise ++ stop :: ts)
      (.conditional start.position (trimmed start) children second :: ns) := by
  intro done blocks rest open_
  have enters := openedConditional begins (open_ ▸ room)
  rw [List.append_assoc, List.append_assoc, List.cons_append, List.cons_append, List.cons_append,
    advancesRead (.opening (.inl begins) enters), inner _ _ _ (by simp [open_]),
    advancesRead (.turning turns), next _ _ _ (by simp [open_]), advancesRead (.closingElse ends),
    others _ _ _ open_]
  simp

theorem loop {name collection : String} (begins : start.kind = .loopStart)
    (header : Loop.header start.value = .ok (name, collection)) (room : (depth : Int) < limits.depth)
    (inner : Yields limits (depth + 1) body children) (ends : stop.kind = .loopEnd)
    (others : Yields limits depth ts ns) :
    Yields limits depth (start :: body ++ stop :: ts)
      (.loop start.position name collection children :: ns) := by
  intro done blocks rest open_
  have enters := openedLoop begins header (open_ ▸ room)
  rw [List.append_assoc, List.cons_append, List.cons_append, advancesRead (.opening (.inr begins) enters),
    inner _ _ _ (by simp [open_]), advancesRead (.closingLoop ends), others _ _ _ open_]
  simp

end Yields

theorem nodesBegin (derived : Token.Nodes limits depth ts) : ∀ t ∈ ts.head?, t.kind ≠ .conditionalEnd := by
  cases derived with
  | nil => simp
  | single single =>
    obtain ⟨-, -, -, -, other⟩ := singleLeaf single
    simpa using other
  | conditional begins | alternative begins | loop begins => simp [begins]

/- Behind an `else` nothing is left out unless its branch is empty. -/
theorem compactTurn {turn stop : Token} {otherwise : List Token} {second : List Node} {tail : List Stamp}
    (turns : turn.kind = .conditionalElse) (ends : stop.kind = .conditionalEnd)
    (begins : ∀ t ∈ otherwise.head?, t.kind ≠ .conditionalEnd) (empty : second = [] ↔ otherwise = [])
    (told : ∀ tail, Stamp.compact (otherwise.map Token.stamp ++ tail) = stampsOf second ++ Stamp.compact tail) :
    Stamp.compact (turn.stamp :: (otherwise.map Token.stamp ++ stop.stamp :: tail)) =
      (if second.isEmpty then [] else .closer .conditionalElse :: stampsOf second) ++
        .closer .conditionalEnd :: Stamp.compact tail := by
  have turned : turn.stamp = .closer .conditionalElse := by simp [Token.stamp, turns]
  have stopped : stop.stamp = .closer .conditionalEnd := by simp [Token.stamp, ends]
  have closed : Stamp.compact (stop.stamp :: tail) = .closer .conditionalEnd :: Stamp.compact tail := by
    rw [Stamp.compactKept (by simp [Token.stampKind, ends]), stopped]
  cases otherwise with
  | nil =>
    obtain rfl := empty.mpr rfl
    have dropped : Stamp.compact (turn.stamp :: stop.stamp :: tail) = Stamp.compact (stop.stamp :: tail) := by
      simp [Stamp.compact, Token.stampKind, turns, ends]
    simpa [closed] using dropped
  | cons t ts =>
    have some : second ≠ [] := fun none => by simpa using empty.mp none
    have kept : Stamp.compact (turn.stamp :: ((t :: ts).map Token.stamp ++ stop.stamp :: tail)) =
        turn.stamp :: Stamp.compact ((t :: ts).map Token.stamp ++ stop.stamp :: tail) := by
      have first := begins t (by simp)
      simp [Stamp.compact, Token.stampKind, first]
    rw [kept, told, closed, turned]
    simp [some]

/- What the grammar derives is read, and the tree tells it all. -/
theorem nodesRead (derived : Token.Nodes limits depth ts) :
    ∃ ns, Yields limits depth ts ns ∧ (ns = [] ↔ ts = []) ∧
      ∀ tail, Stamp.compact (ts.map Token.stamp ++ tail) = stampsOf ns ++ Stamp.compact tail := by
  induction derived with
  | nil => exact ⟨[], fun _ _ _ _ => rfl, by simp, fun tail => by simp [stampsOf]⟩
  | @single depth t ts single _ ih =>
    obtain ⟨n, ok, stamped, noElse, -⟩ := singleLeaf single
    obtain ⟨ns, reads, -, told⟩ := ih
    refine ⟨n :: ns, .single ok reads, by simp, fun tail => ?_⟩
    rw [List.map_cons, List.cons_append, Stamp.compactKept (by rwa [Token.stampKind]), told]
    simp [stampsOf, stamped]
  | @conditional depth start body stop ts begins room _ ends _ inner others =>
    obtain ⟨children, reads, -, told⟩ := inner
    obtain ⟨ns, reads', -, told'⟩ := others
    refine ⟨_, reads.conditional begins room ends reads', by simp, fun tail => ?_⟩
    have opens : start.stamp = ⟨.conditionalStart, [trimmed start], some start.position⟩ := by
      simp [Token.stamp, begins]
    have stopped : stop.stamp = .closer .conditionalEnd := by simp [Token.stamp, ends]
    simp only [List.map_append, List.map_cons, List.cons_append, List.append_assoc]
    rw [Stamp.compactKept (by simp [Token.stampKind, begins]), told,
      Stamp.compactKept (by simp [Token.stampKind, ends]), told', opens, stopped]
    simp [stampsOf, stamps]
  | @alternative depth start body turn otherwise stop ts begins room _ turns derived ends _ inner next others =>
    obtain ⟨children, reads, -, told⟩ := inner
    obtain ⟨second, reads', empty, told'⟩ := next
    obtain ⟨ns, reads'', -, told''⟩ := others
    refine ⟨_, reads.alternative begins room turns reads' ends reads'', by simp, fun tail => ?_⟩
    have opens : start.stamp = ⟨.conditionalStart, [trimmed start], some start.position⟩ := by
      simp [Token.stamp, begins]
    simp only [List.map_append, List.map_cons, List.cons_append, List.append_assoc]
    rw [Stamp.compactKept (by simp [Token.stampKind, begins]), told,
      compactTurn turns ends (nodesBegin derived) empty told', told'', opens]
    simp [stampsOf, stamps]
  | @loop depth start body stop ts name collection begins header room _ ends _ inner others =>
    obtain ⟨children, reads, -, told⟩ := inner
    obtain ⟨ns, reads', -, told'⟩ := others
    refine ⟨_, reads.loop begins header room ends reads', by simp, fun tail => ?_⟩
    have opens : start.stamp = ⟨.loopStart, [name, collection], some start.position⟩ := by
      simp [Token.stamp, begins, Loop.words, header]
    have stopped : stop.stamp = .closer .loopEnd := by simp [Token.stamp, ends]
    simp only [List.map_append, List.map_cons, List.cons_append, List.append_assoc]
    rw [Stamp.compactKept (by simp [Token.stampKind, begins]), told,
      Stamp.compactKept (by simp [Token.stampKind, ends]), told', opens, stopped]
    simp [stampsOf, stamps]

/- What closes a part, from where its nodes end. -/
inductive Closes (limits : Limits) (depth : Nat) : Part → List Token → Prop where
  | thenPart {start stop} (ends : stop.kind = .conditionalEnd) : Closes limits depth (.thenPart start) [stop]
  | bothParts {start turn otherwise stop} (turns : turn.kind = .conditionalElse)
      (second : Token.Nodes limits depth otherwise) (ends : stop.kind = .conditionalEnd) :
      Closes limits depth (.thenPart start) (turn :: otherwise ++ [stop])
  | elsePart {start children stop} (ends : stop.kind = .conditionalEnd) :
      Closes limits depth (.elsePart start children) [stop]
  | loopBody {start name collection stop} (ends : stop.kind = .loopEnd) :
      Closes limits depth (.loopBody start name collection) [stop]

/- What is still to come where blocks are open: more nodes, what closes the innermost block, and what is to
come behind it. -/
def Remains (limits : Limits) : List Open → List Token → Prop
  | [], ts => ∃ us stop, ts = us ++ [stop] ∧ Token.Nodes limits 0 us ∧ stop.kind = .eof
  | o :: outer, ts => ∃ us vs rest, ts = us ++ (vs ++ rest) ∧ Token.Nodes limits (outer.length + 1) us ∧
      Closes limits (outer.length + 1) o.part vs ∧ Remains limits outer rest

theorem Remains.more (remains : Remains limits blocks ts) (front : List Token)
    (grows : ∀ us, Token.Nodes limits blocks.length us → Token.Nodes limits blocks.length (front ++ us)) :
    Remains limits blocks (front ++ ts) := by
  cases blocks with
  | nil =>
    obtain ⟨us, stop, rfl, derived, ends⟩ := remains
    exact ⟨front ++ us, stop, by simp, grows us derived, ends⟩
  | cons o outer =>
    obtain ⟨us, vs, rest, rfl, derived, closes, others⟩ := remains
    exact ⟨front ++ us, vs, rest, by simp, grows us derived, closes, others⟩

theorem Remains.closing {o : Open} (remains : Remains limits blocks ts)
    (closes : Closes limits (blocks.length + 1) o.part [t]) : Remains limits (o :: blocks) (t :: ts) :=
  ⟨[], [t], ts, rfl, .nil, closes, remains⟩

theorem openedOk {part : Part} (ok : opened limits t blocks = .ok part) :
    (blocks.length : Int) < limits.depth ∧
      (t.kind ≠ .loopStart ∧ part = .thenPart t ∨ ∃ name collection, t.kind = .loopStart ∧
        Loop.header t.value = .ok (name, collection) ∧ part = .loopBody t name collection) := by
  rw [opened] at ok
  split at ok
  · cases ok
  · rename_i room
    refine ⟨Int.not_le.mp room, ?_⟩
    split at ok
    · rename_i loop
      split at ok
      · rename_i header
        cases ok
        exact .inr ⟨_, _, loop, header, rfl⟩
      · cases ok
    · rename_i other
      cases ok
      exact .inl ⟨other, rfl⟩

theorem advancesRemains (advances : Advances limits t done blocks done' blocks')
    (remains : Remains limits blocks' ts) : Remains limits blocks (t :: ts) := by
  cases advances with
  | opening kind ok =>
    obtain ⟨us, vs, rest, rfl, derived, closes, outside⟩ := remains
    obtain ⟨room, ⟨noLoop, rfl⟩ | ⟨name, collection, loop, header, rfl⟩⟩ := openedOk ok
    · have begins := kind.resolve_right noLoop
      rw [← List.append_assoc, ← List.cons_append]
      refine outside.more _ fun ws others => ?_
      cases closes with
      | thenPart ends => simpa using Token.Nodes.conditional begins room derived ends others
      | bothParts turns second ends =>
        simpa using Token.Nodes.alternative begins room derived turns second ends others
    · rw [← List.append_assoc, ← List.cons_append]
      refine outside.more _ fun ws others => ?_
      cases closes with
      | loopBody ends => simpa using Token.Nodes.loop loop header room derived ends others
  | turning turns =>
    obtain ⟨us, vs, rest, rfl, second, closes, outside⟩ := remains
    cases closes with
    | elsePart ends => exact ⟨[], _, rest, by simp, .nil, .bothParts turns second ends, outside⟩
  | closingThen ends => exact remains.closing (.thenPart ends)
  | closingElse ends => exact remains.closing (.elsePart ends)
  | closingLoop ends => exact remains.closing (.loopBody ends)
  | leaf ok => exact remains.more [t] fun us others => .single (leafSingle ok) others

/- What is read is derived by the grammar. -/
theorem readRemains (ok : read limits done blocks ts = .ok nodes) (only : ∀ t ∈ ts.dropLast, t.kind ≠ .eof) :
    Remains limits blocks ts := by
  induction ts generalizing done blocks with
  | nil => cases ok
  | cons t ts ih =>
    obtain ⟨ends, rfl, -⟩ | ⟨done', blocks', advances, ok⟩ := readStep ok
    · have last : ts = [] := by
        cases ts with
        | nil => rfl
        | cons u ts => exact absurd ends (only t (by simp))
      exact ⟨[], t, by simp [last], .nil, ends⟩
    · refine advancesRemains advances (ih ok fun u member => only u ?_)
      cases ts with
      | nil => simp at member
      | cons v ts => exact List.mem_cons_of_mem _ member

/- A header, a token and a list of tokens are refused for being no valid template and for nothing else. -/
theorem headerRefused {text : String} {reason : Reason} (refused : Loop.header text = .error reason) :
    reason.code = .invalid := by
  simp only [Loop.header] at refused
  split at refused
  all_goals
    split at refused
    · cases refused
      rfl
    · cases refused

theorem leafRefused {fault : TemplateError} (refused : leaf limits t = .error fault) :
    fault.code = .invalid := by
  rw [leaf.eq_def] at refused
  split at refused
  · cases refused
  · split at refused
    · cases refused
      rfl
    · cases refused
  · split at refused
    · cases refused
      rfl
    · cases refused
  · cases refused
    rfl

theorem openedRefused {fault : TemplateError} (refused : opened limits t blocks = .error fault) :
    fault.code = .invalid := by
  rw [opened] at refused
  split at refused
  · cases refused
    rfl
  · split at refused
    · split at refused
      · cases refused
      · rename_i reason header
        cases refused
        exact headerRefused header
    · cases refused

theorem misplacedCode (t : Token) (blocks : List Open) : (misplaced t blocks).code = .invalid := by
  cases blocks <;> rfl

theorem readRefused {fault : TemplateError} (refused : read limits done blocks ts = .error fault) :
    fault.code = .invalid := by
  fun_induction read limits done blocks ts with
  | case1 | case3 | case9 =>
    cases refused
    rfl
  | case2 => cases refused
  | case4 | case6 | case8 | case11 | case12 | case14 | case16 | case18 | case20 | case22 =>
    rename_i ih
    exact ih refused
  | case5 | case7 =>
    rename_i failed
    cases refused
    exact openedRefused failed
  | case10 | case13 | case15 =>
    cases refused
    exact misplacedCode _ _
  | case17 | case19 | case21 | case23 =>
    rename_i failed
    cases refused
    exact leafRefused failed

theorem treeRefused {fault : TemplateError} (refused : ofTokens limits ts = .error fault) :
    fault.code = .invalid := by
  rw [ofTokens] at refused
  split at refused
  · split at refused
    · cases refused
    · rename_i failed
      cases refused
      exact readRefused failed
  · cases refused
    rfl

theorem nodesTree {stop : Token} (ends : stop.kind = .eof) (derived : Token.Nodes limits 0 ts) :
    ∃ tree, ofTokens limits (ts ++ [stop]) = .ok tree ∧
      tree.stamps = Stamp.compact ((ts ++ [stop]).map Token.stamp) := by
  obtain ⟨nodes, reads, -, told⟩ := nodesRead derived
  have all : read limits [] [] (ts ++ [stop]) = .ok nodes := by
    rw [reads _ _ _ rfl]
    simp [read, ends]
  refine ⟨.root .start nodes, by simp [ofTokens, ends, all], ?_⟩
  have stopped : stop.stamp = .closer .eof := by simp [Token.stamp, ends]
  rw [List.map_append, List.map_singleton, told, stopped]
  rfl

/- Tokens are read just if the grammar derives them, and the tree tells them in their order, save for an `else`
with nothing behind it. All other tokens are refused as invalid. -/
theorem readsGrammar {stop : Token} (plain : ∀ t ∈ ts, t.kind ≠ .eof) (ends : stop.kind = .eof) :
    ((∃ tree, ofTokens limits (ts ++ [stop]) = .ok tree) ↔ Token.Nodes limits 0 ts) ∧
      (∀ tree, ofTokens limits (ts ++ [stop]) = .ok tree →
        tree.stamps = Stamp.compact ((ts ++ [stop]).map Token.stamp)) ∧
      ∀ fault, ofTokens limits (ts ++ [stop]) = .error fault → fault.code = .invalid := by
  have derives : ∀ tree, ofTokens limits (ts ++ [stop]) = .ok tree → Token.Nodes limits 0 ts := by
    intro tree ok
    obtain ⟨nodes, -, made⟩ := treeRead ok
    obtain ⟨us, last, same, derived, -⟩ := readRemains made (by simpa using plain)
    obtain ⟨rfl, -⟩ := List.append_inj' same rfl
    exact derived
  refine ⟨⟨fun ⟨tree, ok⟩ => derives tree ok, fun derived => ?_⟩, fun tree ok => ?_, fun _ => treeRefused⟩
  · obtain ⟨tree, ok, -⟩ := nodesTree ends derived
    exact ⟨tree, ok⟩
  · obtain ⟨tree', ok', told⟩ := nodesTree ends (derives tree ok)
    rw [ok] at ok'
    cases ok'
    exact told

def sampleToken (kind : TokenKind) (value : String) (column : Int) : Token :=
  ⟨kind, value, ⟨1, column, 0⟩, 0⟩

/- A loop around a conditional with an `else` that has nothing behind it. -/
def sampleBlocks : List Token := [sampleToken .loopStart "x in xs" 1, sampleToken .conditionalStart " x " 20,
  sampleToken .text "a" 30, sampleToken .conditionalElse "" 31, sampleToken .conditionalEnd "" 38,
  sampleToken .loopEnd "" 44]

def sampleStop : Token := sampleToken .eof "" 51

theorem sampleBlocksDerived : Token.Nodes .standard 0 sampleBlocks := by
  have header : Loop.header (sampleToken .loopStart "x in xs" 1).value = .ok ("x", "xs") := by cbv
  have text : Token.Nodes .standard 2 [sampleToken .text "a" 30] := .single (.inl rfl) .nil
  have inner : Token.Nodes .standard 1 ([sampleToken .conditionalStart " x " 20, sampleToken .text "a" 30] ++
      [sampleToken .conditionalElse "" 31] ++ [sampleToken .conditionalEnd "" 38]) :=
    .alternative rfl (by decide) text rfl .nil rfl .nil
  exact .loop rfl header (by decide) inner rfl .nil

theorem readsGrammarBlocks : (∀ t ∈ sampleBlocks, t.kind ≠ .eof) ∧ sampleStop.kind = .eof ∧
    ∃ tree, ofTokens .standard (sampleBlocks ++ [sampleStop]) = .ok tree ∧
      tree.stamps = [⟨.loopStart, ["x", "xs"], some ⟨1, 1, 0⟩⟩, ⟨.conditionalStart, ["x"], some ⟨1, 20, 0⟩⟩,
        ⟨.text, ["a"], some ⟨1, 30, 0⟩⟩, .closer .conditionalEnd, .closer .loopEnd, .closer .eof] := by
  have plain : ∀ t ∈ sampleBlocks, t.kind ≠ .eof := by decide
  have told : Stamp.compact ((sampleBlocks ++ [sampleStop]).map Token.stamp) =
      [⟨.loopStart, ["x", "xs"], some ⟨1, 1, 0⟩⟩, ⟨.conditionalStart, ["x"], some ⟨1, 20, 0⟩⟩,
        ⟨.text, ["a"], some ⟨1, 30, 0⟩⟩, .closer .conditionalEnd, .closer .loopEnd, .closer .eof] := by cbv
  obtain ⟨accepts, tells, -⟩ := @readsGrammar .standard sampleBlocks sampleStop plain rfl
  obtain ⟨tree, ok⟩ := accepts.mpr sampleBlocksDerived
  exact ⟨plain, rfl, tree, ok, (tells tree ok).trans told⟩

/- What no tree keeps: blanks around a value, the spelling of a header, the values and the places of tokens that
begin no node. -/
def sampleSpellings : List (List Token × List Token) := [
  ([sampleToken .output " x " 1, sampleToken .eof "" 6], [sampleToken .output "x" 1, sampleToken .eof "" 6]),
  ([sampleToken .loopStart "xs" 1, sampleToken .loopEnd "" 11, sampleToken .eof "" 19],
    [sampleToken .loopStart "item in xs" 1, sampleToken .loopEnd "" 11, sampleToken .eof "" 19]),
  ([sampleToken .conditionalStart "x" 1, sampleToken .conditionalEnd "" 8, sampleToken .eof "" 14],
    [sampleToken .conditionalStart "x" 1, sampleToken .conditionalEnd "" 9, sampleToken .eof "" 14]),
  ([sampleToken .conditionalStart "x" 1, sampleToken .conditionalEnd "" 8, sampleToken .eof "" 14],
    [sampleToken .conditionalStart "x" 1, sampleToken .conditionalEnd "x" 8, sampleToken .eof "" 14])]

/- Telling the tree gives back the kinds, the values and the places of the tokens that it was made of. -/
def TellsAll (told : Node → List (TokenKind × String × Position)) (ts : List Token) : Prop :=
  ∀ tree, ofTokens .standard ts = .ok tree → told tree = ts.map fun t => (t.kind, t.value, t.position)

theorem untold {tree : Node} (ok : ofTokens .standard ts = .ok tree) (ok' : ofTokens .standard us = .ok tree)
    (differ : (ts.map fun t => (t.kind, t.value, t.position)) ≠ us.map fun t => (t.kind, t.value, t.position)) :
    ¬ ∃ told, TellsAll told ts ∧ TellsAll told us := by
  rintro ⟨told, first, second⟩
  exact differ ((first tree ok).symm.trans (second tree ok'))

theorem spellingLost : ¬ ∃ pair ∈ sampleSpellings, ∃ told, TellsAll told pair.1 ∧ TellsAll told pair.2 := by
  have blanks : ofTokens .standard [sampleToken .output " x " 1, sampleToken .eof "" 6] =
      .ok (.root .start [.output ⟨1, 1, 0⟩ "x"]) := by cbv
  have noBlanks : ofTokens .standard [sampleToken .output "x" 1, sampleToken .eof "" 6] =
      .ok (.root .start [.output ⟨1, 1, 0⟩ "x"]) := by cbv
  have short : ofTokens .standard [sampleToken .loopStart "xs" 1, sampleToken .loopEnd "" 11,
      sampleToken .eof "" 19] = .ok (.root .start [.loop ⟨1, 1, 0⟩ "item" "xs" []]) := by cbv
  have long : ofTokens .standard [sampleToken .loopStart "item in xs" 1, sampleToken .loopEnd "" 11,
      sampleToken .eof "" 19] = .ok (.root .start [.loop ⟨1, 1, 0⟩ "item" "xs" []]) := by cbv
  have conditional (value : String) (column : Int) : ofTokens .standard [sampleToken .conditionalStart "x" 1,
      sampleToken .conditionalEnd value column, sampleToken .eof "" 14] =
        .ok (.root .start [.conditional ⟨1, 1, 0⟩ "x" [] []]) := by
    have trim : trimmed (sampleToken .conditionalStart "x" 1) = "x" := by cbv
    have room : ¬ (100 : Int) ≤ 0 := by decide
    simp [ofTokens, read, sampleToken, opened, Limits.standard, room] at trim ⊢
    exact trim
  have never : ∀ pair ∈ sampleSpellings, ¬ ∃ told, TellsAll told pair.1 ∧ TellsAll told pair.2 := by
    simp only [sampleSpellings, List.forall_mem_cons, List.not_mem_nil, false_implies, implies_true, and_true]
    exact ⟨untold blanks noBlanks (by decide), untold short long (by decide),
      untold (conditional _ _) (conditional _ _) (by decide),
      untold (conditional _ _) (conditional _ _) (by decide)⟩
  rintro ⟨pair, member, told⟩
  exact never pair member told

end Node
end Stencil
