import Stencil.Markup.Statistics
import Stencil.Proofs.Placing
import Stencil.Proofs.Validation

/-! The tokens, the tree and the instructions of a text count the same things. What begins with one token is one node
and becomes one instruction, in whatever blocks it stands. -/
namespace Stencil

/- What a node is called that a token of this kind begins. -/
def TokenKind.nodeWord? : TokenKind → Option String
  | .text => some "text"
  | .output => some "variable"
  | .conditionalStart => some "conditional"
  | .loopStart => some "loop"
  | .inclusion => some "include"
  | .conditionalElse | .conditionalEnd | .loopEnd | .comment | .eof => none

theorem TokenKind.wordsApart {a b : TokenKind} : a.word = b.word ↔ a = b := by
  cases a <;> cases b <;> decide

theorem TokenKind.nodeWordsApart {a b : TokenKind} {word : String} (named : a.nodeWord? = some word) :
    b.nodeWord? = some word ↔ b = a := by
  rw [← named]
  cases a <;> cases b <;> first | decide | cases named

theorem TokenKind.nodeWordNotRoot (kind : TokenKind) : kind.nodeWord? ≠ some "root" := by
  cases kind <;> decide

theorem TokenKind.nodeWordBegins {t : Token} {word : String} (named : t.kind.nodeWord? = some word) : t.Begins := by
  obtain ⟨kind, value, position, stop⟩ := t
  cases kind <;> first | (simp [Token.Begins]; done) | cases named

namespace Node

mutual

/- One visit notes the node and everything below it, in the order in which they are listed. -/
theorem visitMeets (depth : Nat) (v : Visited) (n : Node) :
    visit depth v n = ⟨(n.all.map kind).foldl (fun counts word => bump word counts) v.counts,
      max v.depth (depth + n.height)⟩ := by
  cases n with
  | conditional p condition children otherwise =>
    rw [visit, visitAllMeets depth _ children (Nat.le_max_right _ _),
      visitAllMeets depth _ otherwise (by simp only; omega)]
    simp only [all, height, List.map_cons, List.map_append, List.foldl_cons, List.foldl_append, Visited.mk.injEq,
      true_and]
    omega
  | loop p name collection children =>
    rw [visit, visitAllMeets _ _ _ (Nat.le_max_right _ _)]
    simp only [all, height, List.map_cons, List.foldl_cons, Visited.mk.injEq, true_and]
    omega
  | root p children =>
    rw [visit, visitAllMeets _ _ _ (Nat.le_max_right _ _)]
    simp only [all, height, List.map_cons, List.foldl_cons, Visited.mk.injEq, true_and]
    omega
  | text | output | inclusion | foreign => rfl

theorem visitAllMeets (depth : Nat) (v : Visited) (ns : List Node) (deep : depth ≤ v.depth) :
    visitAll (depth + 1) v ns = ⟨((allOf ns).map kind).foldl (fun counts word => bump word counts) v.counts,
      max v.depth (depth + heightOf ns)⟩ := by
  cases ns with
  | nil => simp [visitAll, allOf, heightOf, deep]
  | cons n ns =>
    rw [visitAll, visitMeets, visitAllMeets _ _ _ (by simp only; omega)]
    simp only [allOf, heightOf, List.map_append, List.foldl_append, Visited.mk.injEq, true_and]
    omega

end

theorem statisticsMeet (n : Node) : n.statistics = ⟨n.all.length, n.counts, n.height⟩ := by
  have met : visit 0 ⟨[], 0⟩ n = ⟨n.counts, n.height⟩ := by
    rw [visitMeets, Nat.zero_add, Nat.zero_max]
    rfl
  rw [statistics, met, counts, totalOf_tally, List.length_map]

/- A node is called after the token that began it. -/
theorem kindMarked {n : Node} {m : Mark} (marked : n.mark? = some m) : m.kind.nodeWord? = some n.kind := by
  cases n <;> cases marked <;> rfl

/- The names of the nodes below the root are those that the tokens give them. -/
theorem treeKinds {limits : Limits} {ts : List Token} {tree : Node} (ok : ofTokens limits ts = .ok tree)
    (only : ∀ t ∈ ts.dropLast, t.kind ≠ .eof) :
    tree.all.map (some ∘ kind) = some "root" :: (ts.filter (·.Begins)).map (·.kind.nodeWord?) := by
  have marks := treeMarks ok only
  obtain ⟨nodes, rfl, -⟩ := treeRead ok
  have below : (allOf nodes).map (some ∘ kind) = (Token.marks ts).map (·.kind.nodeWord?) := by
    have named := congrArg (List.map (Option.bind · (·.kind.nodeWord?))) marks
    rw [List.map_map, List.map_map] at named
    refine Eq.trans (List.map_congr_left fun n member => ?_) named
    have marked : n.mark? ∈ (Token.marks ts).map some := marks ▸ List.mem_map_of_mem member
    obtain ⟨m, -, same⟩ := List.mem_map.mp marked
    simp [← same, kindMarked same.symm]
  rw [all, List.map_cons, below, Token.marks, List.map_map]
  rfl

end Node

namespace Instruction

mutual

theorem countListed (i : Instruction) : i.count = i.all.length := by
  cases i with
  | branch p condition first second =>
    rw [count, countAllListed, countAllListed, all, List.length_cons, List.length_append]
  | iterate p name collection body => rw [count, countAllListed, all, List.length_cons]
  | text | emit | inclusion | foreign => rfl

theorem countAllListed (is : List Instruction) : countAll is = (allOf is).length := by
  cases is with
  | nil => rfl
  | cons i is => rw [countAll, countListed, countAllListed, allOf, List.length_append]

end

end Instruction

/- Whatever was compiled: each of its instructions stands for one node below the root. -/
theorem Procedure.countNodes {env : Registry} {tree : Node} {c : Compiled} (ok : compile env tree = .ok c) :
    c.procedure.count + 1 = tree.all.length := by
  obtain ⟨p, children, k, rfl, -, -, made⟩ := compiled ok
  have matched := (translatesAllMarked made).length_eq
  rw [Node.marks, List.length_map] at matched
  rw [Procedure.count, Instruction.countAllListed, matched]
  rfl

/- Of a text that can be processed, the instructions and the root are as many as the nodes, these as many as the tokens
that begin something, and one more; there is one root, and of each kind there are as many nodes as tokens. No node lies
deeper than the blocks may, but for one level. -/
theorem Engine.countsAgree {e : Engine} {text : String} {cache : Cache Template} {useCache : Bool} {p : Processed}
    (honest : useCache = true → e.Honest text cache) (ok : (e.process text useCache cache).1 = .ok p) :
    ∃ tokens, Token.scan e.settings.delimiters text = .ok tokens ∧
      let met := p.template.tree.statistics
      p.template.procedure.count + 1 = met.total ∧ met.total = 1 + tokens.countP (·.Begins) ∧
      countOf "root" met.counts = 1 ∧
      (∀ kind word, TokenKind.nodeWord? kind = some word →
        countOf word met.counts = countOf kind.word (Token.counts tokens)) ∧
      met.depth ≤ e.settings.limits.depth.toNat + 1 := by
  obtain ⟨q, built, same⟩ : ∃ q, e.build text = .ok q ∧ q.template = p.template := by
    cases useCache with
    | false => exact ⟨p, by rwa [processUncached] at ok, rfl⟩
    | true => exact (honest rfl).processed ok
  obtain ⟨tokens, tree, c, scanned, read, compiled, rfl⟩ := buildOk.mp built
  rw [← same]
  have kinds := Node.treeKinds read (Token.scanEnds scanned)
  have rows (word : String) : countOf word tree.counts =
      (some "root" :: (tokens.filter (·.Begins)).map (·.kind.nodeWord?)).count (some word) := by
    rw [Node.counts, countOf_tally, ← kinds, ← List.map_map,
      List.count_map_of_injective _ _ (Option.some_injective String)]
  have total : tree.all.length = 1 + tokens.countP (·.Begins) := by
    have long := congrArg List.length kinds
    rw [List.length_map, List.length_cons, List.length_map, ← List.countP_eq_length_filter] at long
    omega
  refine ⟨tokens, scanned, ?_⟩
  simp only [Node.statisticsMeet]
  refine ⟨Procedure.countNodes compiled, total, ?_, ?_, ?_⟩
  · have absent : some "root" ∉ (tokens.filter (·.Begins)).map (·.kind.nodeWord?) := by
      intro member
      obtain ⟨t, -, named⟩ := List.mem_map.mp member
      exact t.kind.nodeWordNotRoot named
    rw [rows, List.count_cons_self, List.count_eq_zero.mpr absent]
  · intro kind word named
    have other : some "root" ≠ some word := fun same => kind.nodeWordNotRoot (named.trans same.symm)
    rw [rows, List.count_cons_of_ne other, Token.counts, countOf_tally]
    simp only [List.count, List.countP_map, List.countP_filter]
    refine List.countP_congr fun t _ => ?_
    simp only [Function.comp_apply, Bool.and_eq_true, beq_iff_eq, decide_eq_true_eq, TokenKind.wordsApart]
    rw [and_iff_left_of_imp TokenKind.nodeWordBegins, TokenKind.nodeWordsApart named]
  · obtain ⟨nodes, rfl, made⟩ := Node.treeRead read
    exact Node.readShallow made (Nat.zero_le _)

/- A text in a block lies as deep as it may where one block may be open. -/
theorem Engine.countsAgreeBlock : ∃ p tokens,
    ((sampleLimited 1).process sampleBlock true (.empty true 0)).1 = .ok p ∧
    Token.scan .standard sampleBlock = .ok tokens ∧ p.template.procedure.count + 1 = p.template.tree.statistics.total ∧
    p.template.tree.statistics.total = 1 + tokens.countP (·.Begins) ∧
    p.template.tree.statistics = ⟨3, [("root", 1), ("conditional", 1), ("text", 1)], 2⟩ := by
  have read : Node.ofTokens ⟨1, false⟩ sampleBlockTokens = .ok (.root .start sampleBlockNodes) := by cbv
  obtain ⟨p, ok, tree⟩ := sampleBlockProcessed read
  have honest : true = true → (sampleLimited 1).Honest sampleBlock (.empty true 0) := by
    simp [Engine.Honest, Cache.empty]
  obtain ⟨tokens, scanned, listed, total, -⟩ := countsAgree honest ok
  refine ⟨p, tokens, ok, scanned, listed, total, ?_⟩
  rw [tree]
  decide

end Stencil
