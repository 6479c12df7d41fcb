import Stencil.Proofs.Blocks

/-! The balance of blocks. Two counters that start again after an error find nothing wrong just if the
conditionals, and the loops, are nested as brackets are and each `else` stands in a conditional. -/
namespace Stencil

/- Brackets in pairs, beside and inside each other; `true` opens one and `false` closes it. -/
inductive Paired : List Bool → Prop where
  | nil : Paired []
  | pair {inner rest} (inside : Paired inner) (behind : Paired rest) :
      Paired (true :: inner ++ false :: rest)

namespace Paired

variable {u v w : List Bool} {n : Nat}

/- How many brackets stay open; none is closed that was not open. -/
def left? : Nat → List Bool → Option Nat
  | n, [] => some n
  | n, true :: w => left? (n + 1) w
  | n + 1, false :: w => left? n w
  | 0, false :: _ => none

theorem passed (paired : Paired u) (n : Nat) (v : List Bool) : left? n (u ++ v) = left? n v := by
  induction paired generalizing n v with
  | nil => rfl
  | pair _ _ inside behind =>
    rw [List.append_assoc, List.cons_append, left?, inside, List.cons_append, left?, behind]

/- A pair may be put in anywhere. -/
theorem insert (paired : Paired w) (whole : w = u ++ v) : Paired (u ++ true :: false :: v) := by
  induction paired generalizing u v with
  | nil =>
    obtain ⟨rfl, rfl⟩ := List.append_eq_nil_iff.mp whole.symm
    exact .pair .nil .nil
  | @pair inner rest inside behind within beyond =>
    cases u with
    | nil =>
      obtain rfl : true :: inner ++ false :: rest = v := whole
      exact .pair .nil (.pair inside behind)
    | cons b u =>
      obtain ⟨rfl, same⟩ := List.cons.inj whole
      obtain ⟨more, rfl, apart⟩ | ⟨more, rfl, rfl⟩ := List.append_eq_append_iff.mp same
      · -- The place is behind the inner brackets, in front of the closing one or beyond it.
        cases more with
        | nil =>
          obtain rfl : false :: rest = v := apart
          simpa using Paired.pair (within (List.append_nil inner).symm) behind
        | cons c more =>
          obtain ⟨rfl, rfl⟩ := List.cons.inj apart
          simpa using Paired.pair inside (beyond rfl)
      · simpa using Paired.pair (within rfl) behind

theorem ofLeft (closed : left? n w = some 0) : Paired (List.replicate n true ++ w) := by
  induction w generalizing n with
  | nil =>
    obtain rfl : n = 0 := Option.some.inj closed
    exact .nil
  | cons b w ih =>
    cases b with
    | true =>
      have shifted : List.replicate (n + 1) true ++ w = List.replicate n true ++ true :: w := by
        rw [List.replicate_succ', List.append_assoc, List.singleton_append]
      exact shifted ▸ ih closed
    | false =>
      cases n with
      | zero => cases closed
      | succ n =>
        have shifted : List.replicate n true ++ true :: false :: w = List.replicate (n + 1) true ++ false :: w := by
          rw [List.replicate_succ', List.append_assoc, List.singleton_append]
        exact shifted ▸ (ih closed).insert rfl

theorem iffLeft : Paired w ↔ left? 0 w = some 0 := by
  constructor
  · intro paired
    simpa [left?] using paired.passed 0 []
  · exact fun closed => by simpa using ofLeft closed

end Paired

namespace Token

/- The tokens that open and close one kind of block, taken alone. -/
def brackets (opening closing : TokenKind) (ts : List Token) : List Bool :=
  ts.filterMap fun t =>
    if t.kind = opening then some true else if t.kind = closing then some false else none

/- Where an `else` stands, more conditionals have begun than ended, if `n` were open before. -/
def ElseInside (n : Nat) (ts : List Token) : Prop :=
  ∀ front t behind, ts = front ++ t :: behind → t.kind = .conditionalElse →
    front.countP (·.kind = .conditionalEnd) < n + front.countP (·.kind = .conditionalStart)

variable {t : Token} {ts : List Token} {n : Nat} {b : Balance}

theorem elseCons : ElseInside n (t :: ts) ↔ (t.kind = .conditionalElse → 0 < n) ∧
    ∀ front u behind, ts = front ++ u :: behind → u.kind = .conditionalElse →
      (t :: front).countP (·.kind = .conditionalEnd) < n + (t :: front).countP (·.kind = .conditionalStart) := by
  constructor
  · intro inside
    exact ⟨fun kind => by simpa using inside [] t ts rfl kind,
      fun front u behind whole kind => inside (t :: front) u behind (by rw [whole]; rfl) kind⟩
  · rintro ⟨here, later⟩ front u behind whole kind
    cases front with
    | nil =>
      obtain ⟨rfl, rfl⟩ := List.cons.inj whole
      simpa using here kind
    | cons v front =>
      obtain ⟨rfl, rest⟩ := List.cons.inj whole
      exact later front u behind rest kind

theorem elseStart (kind : t.kind = .conditionalStart) : ElseInside n (t :: ts) ↔ ElseInside (n + 1) ts := by
  rw [elseCons, ElseInside]
  simp [kind, Nat.add_assoc, Nat.add_comm 1]

theorem elseEnd (kind : t.kind = .conditionalEnd) : ElseInside (n + 1) (t :: ts) ↔ ElseInside n ts := by
  rw [elseCons, ElseInside]
  simp [kind, Nat.add_right_comm n 1]

theorem elseHere (kind : t.kind = .conditionalElse) : ElseInside n (t :: ts) ↔ 0 < n ∧ ElseInside n ts := by
  rw [elseCons, ElseInside]
  simp [kind]

theorem elseOther (other : t.kind ∉ [.conditionalStart, .conditionalElse, .conditionalEnd]) :
    ElseInside n (t :: ts) ↔ ElseInside n ts := by
  simp only [List.mem_cons, List.not_mem_nil, or_false, not_or] at other
  rw [elseCons, ElseInside]
  simp [other]

/- What has been found wrong once stays in the report. -/
theorem errorsKept (wrong : b.errors ≠ []) (ts : List Token) : (ts.foldl Balance.step b).report ≠ [] := by
  induction ts generalizing b with
  | nil => simp [Balance.report, wrong]
  | cons t ts ih =>
    refine ih ?_
    rw [Balance.step.eq_def]
    split
    · exact wrong
    · split
      · simp [Balance.unmatched]
      · exact wrong
    · split
      · simp [Balance.unmatched]
      · exact wrong
    · exact wrong
    · split
      · simp [Balance.unmatched]
      · exact wrong
    · exact wrong

/- The counters go on from any balance in which nothing is wrong yet. -/
theorem reportEmpty (fine : b.errors = []) : (ts.foldl Balance.step b).report = [] ↔
    Paired.left? b.conditionals (brackets .conditionalStart .conditionalEnd ts) = some 0 ∧
      Paired.left? b.loops (brackets .loopStart .loopEnd ts) = some 0 ∧ ElseInside b.conditionals ts := by
  induction ts generalizing b with
  | nil =>
    have nowhere : ElseInside b.conditionals [] := fun front t behind whole => by simp at whole
    simp [Balance.report, fine, brackets, Paired.left?, nowhere]
  | cons t ts ih =>
    rw [List.foldl_cons]
    cases kind : t.kind with
    | conditionalStart =>
      have step : b.step t = { b with conditionals := b.conditionals + 1 } := by simp [Balance.step, kind]
      rw [step, ih (by exact fine), elseStart kind]
      simp [brackets, kind, Paired.left?]
    | conditionalElse =>
      have same : b.conditionals ≠ 0 → b.step t = b := fun some => by simp [Balance.step, kind, some]
      rw [elseHere kind]
      by_cases none : b.conditionals = 0
      · have wrong : (b.step t).errors ≠ [] := by simp [Balance.step, kind, none, Balance.unmatched]
        simp [errorsKept wrong, none]
      · rw [same none, ih fine]
        simp [brackets, kind, Nat.pos_of_ne_zero none]
    | conditionalEnd =>
      cases count : b.conditionals with
      | zero =>
        have wrong : (b.step t).errors ≠ [] := by simp [Balance.step, kind, count, Balance.unmatched]
        simp [errorsKept wrong, brackets, kind, Paired.left?]
      | succ n =>
        have step : b.step t = { b with conditionals := n } := by simp [Balance.step, kind, count]
        rw [step, ih (by exact fine), elseEnd kind]
        simp [brackets, kind, Paired.left?]
    | loopStart =>
      have step : b.step t = { b with loops := b.loops + 1 } := by simp [Balance.step, kind]
      rw [step, ih (by exact fine), elseOther (by simp [kind])]
      simp [brackets, kind, Paired.left?]
    | loopEnd =>
      rw [elseOther (by simp [kind])]
      cases count : b.loops with
      | zero =>
        have wrong : (b.step t).errors ≠ [] := by simp [Balance.step, kind, count, Balance.unmatched]
        simp [errorsKept wrong, brackets, kind, Paired.left?]
      | succ n =>
        have step : b.step t = { b with loops := n } := by simp [Balance.step, kind, count]
        rw [step, ih (by exact fine)]
        simp [brackets, kind, Paired.left?]
    | text | output | inclusion | comment | eof =>
      have step : b.step t = b := by simp [Balance.step, kind]
      rw [step, ih (by exact fine), elseOther (by simp [kind])]
      simp [brackets, kind]

/- Nothing is found wrong with tokens just if their blocks are balanced; and nothing is found wrong with those
that can be read as a tree. -/
theorem balanceExact (ts : List Token) :
    (balanceErrors ts = [] ↔ Paired (brackets .conditionalStart .conditionalEnd ts) ∧
      Paired (brackets .loopStart .loopEnd ts) ∧ ElseInside 0 ts) ∧
    ∀ limits tree, (∀ t ∈ ts.dropLast, t.kind ≠ .eof) → Node.ofTokens limits ts = .ok tree →
      balanceErrors ts = [] := by
  constructor
  · rw [Paired.iffLeft, Paired.iffLeft]
    exact reportEmpty rfl
  · intro limits tree ends ok
    obtain ⟨nodes, -, made⟩ := Node.treeRead ok
    exact readBalanced made ends ⟨rfl, rfl, rfl⟩

def sampleBlocks : List Token := [⟨.loopStart, "x in xs", .start, 17⟩, ⟨.conditionalStart, "x", .start, 25⟩,
  ⟨.conditionalElse, "", .start, 32⟩, ⟨.output, "x", .start, 36⟩, ⟨.conditionalEnd, "", .start, 42⟩,
  ⟨.loopEnd, "", .start, 50⟩, ⟨.eof, "", .start, 50⟩]

theorem balanceExactBlocks : Paired (brackets .loopStart .loopEnd sampleBlocks) ∧ ElseInside 0 sampleBlocks ∧
    balanceErrors (sampleBlocks.take 4) ≠ [] := by
  have ends : ∀ t ∈ sampleBlocks.dropLast, t.kind ≠ .eof := by decide
  have readable : ∃ tree, Node.ofTokens .standard sampleBlocks = .ok tree := ⟨_, by cbv⟩
  obtain ⟨tree, ok⟩ := readable
  have fine : balanceErrors sampleBlocks = [] := (balanceExact sampleBlocks).2 .standard tree ends ok
  obtain ⟨-, loops, inside⟩ := (balanceExact sampleBlocks).1.mp fine
  refine ⟨loops, inside, fun none => ?_⟩
  obtain ⟨conditionals, -, -⟩ := (balanceExact (sampleBlocks.take 4)).1.mp none
  rw [Paired.iffLeft] at conditionals
  revert conditionals
  decide

end Token
end Stencil
