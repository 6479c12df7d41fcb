import Stencil.Markup.Descent
import Stencil.Proofs.Derivation

/-! Descents come to an end, inside of the list that they go over, and give what one pass over the tokens gives. What
is left to read is the measure: no function comes back to a place without having passed a token, and none passes the
last one. So there is an amount of fuel from which on none is exhausted. -/
namespace Stencil

namespace Descent

variable {ε α β : Type} {good good' : α → Prop} {bad bad' : ε → Prop}

/- The descent neither exhausts its fuel nor leaves the list: it returns something good, or refuses for a reason. -/
def Settles (good : α → Prop) (bad : ε → Prop) (m : Descent ε α) : Prop :=
  (∃ a, m = pure a ∧ good a) ∨ ∃ fault, m = refuse fault ∧ bad fault

theorem Settles.returned {a : α} (here : good a) : Settles good bad (pure a) := .inl ⟨a, rfl, here⟩

theorem Settles.refused {fault : ε} (here : bad fault) : Settles good bad (refuse fault) := .inr ⟨fault, rfl, here⟩

theorem Settles.bind {m : Descent ε α} {f : α → Descent ε β} {goodNext : β → Prop} (first : Settles good bad' m)
    (worse : ∀ fault, bad' fault → bad fault) (others : ∀ a, good a → Settles goodNext bad (f a)) :
    Settles goodNext bad (m >>= f) := by
  obtain ⟨a, rfl, here⟩ | ⟨fault, rfl, here⟩ := first
  · rw [pure_bind]
    exact others a here
  · exact .inr ⟨fault, rfl, worse fault here⟩

theorem Settles.mono {m : Descent ε α} (settles : Settles good bad m) (better : ∀ a, good a → good' a)
    (worse : ∀ fault, bad fault → bad' fault) : Settles good' bad' m := by
  obtain ⟨a, rfl, here⟩ | ⟨fault, rfl, here⟩ := settles
  · exact .returned (better a here)
  · exact .refused (worse fault here)

theorem currentFound {xs : List α} {place : Nat} {x : α} (found : xs[place]? = some x) :
    (current xs place : Descent ε α) = pure x := by
  rw [current, found]

theorem restFound {xs : List α} {place : Nat} {x : α} (found : xs[place]? = some x) :
    xs.drop place = x :: xs.drop (place + 1) := by
  obtain ⟨inside, rfl⟩ := List.getElem?_eq_some_iff.mp found
  exact List.drop_eq_getElem_cons inside

end Descent

namespace Node.Descent

open Stencil.Descent

variable {limits : Limits} {ts : List Token} {t : Token} {place : Nat}

/- The last token is the end of the template. -/
def Closed (ts : List Token) : Prop := ts.getLast?.map (·.kind) = some .eof

theorem passes (closed : Closed ts) (found : ts[place]? = some t) (more : t.kind ≠ .eof) : place + 1 < ts.length := by
  obtain ⟨inside, -⟩ := List.getElem?_eq_some_iff.mp found
  refine lt_of_le_of_ne inside fun last => more ?_
  rw [Closed, List.getLast?_eq_getElem?, ← last, Nat.add_sub_cancel, found] at closed
  exact Option.some.inj closed

theorem advanceFound (found : ts[place]? = some t) (more : t.kind ≠ .eof) : advance ts place = pure (place + 1) := by
  rw [advance, currentFound found, pure_bind, if_neg more]

/- What stands here turns or closes a block, or ends the template. -/
def Stops (ts : List Token) (place : Nat) : Prop :=
  ∃ t, ts[place]? = some t ∧ t.kind ∈ [.conditionalElse, .conditionalEnd, .loopEnd, .eof]

/- Between the two places these nodes are read, whatever stands before them, in as many open blocks. -/
def Goes (limits : Limits) (ts : List Token) (depth place : Nat) (ns : List Node) (next : Nat) : Prop :=
  ∀ done blocks, blocks.length = depth →
    read limits done blocks (ts.drop place) = read limits (ns.reverse ++ done) blocks (ts.drop next)

/- What stands here is refused, whatever stands before it, in as many open blocks. -/
def Fails (limits : Limits) (ts : List Token) (depth place : Nat) (fault : TemplateError) : Prop :=
  ∀ done blocks, blocks.length = depth → read limits done blocks (ts.drop place) = .error fault

/- A node was passed and read. -/
def Takes (limits : Limits) (ts : List Token) (depth place : Nat) (n : Node) (next : Nat) : Prop :=
  place < next ∧ next < ts.length ∧ Goes limits ts depth place [n] next

/- The block around the branch that is being read. -/
def partly (start : Token) : Option (List Node) → Part
  | none => .thenPart start
  | some children => .elsePart start children

/- The block around is refused for what stands in this branch or behind it, whatever stands before the block. -/
def Breaks (limits : Limits) (ts : List Token) (depth : Nat) (start : Token) (children : Option (List Node))
    (place : Nat) (fault : TemplateError) : Prop :=
  ∀ done blocks, blocks.length + 1 = depth →
    read limits [] (⟨partly start children, done⟩ :: blocks) (ts.drop place) = .error fault

theorem enterSettles (limits : Limits) (start : Token) (depth : Nat) :
    Settles (fun inner => ¬ limits.depth ≤ depth ∧ inner = depth + 1)
      (fun fault => limits.depth ≤ depth ∧ fault = wrong start (.tooDeep limits.depth)) (enter limits start depth) := by
  rw [enter]
  split
  · exact .refused ⟨by assumption, rfl⟩
  · exact .returned ⟨by assumption, rfl⟩

theorem readOpens (found : ts[place]? = some t) (opens : t.kind = .conditionalStart ∨ t.kind = .loopStart)
    {blocks : List Open} {part : Part} (ok : opened limits t blocks = .ok part) (done : List Node) :
    read limits done blocks (ts.drop place) = read limits [] (⟨part, done⟩ :: blocks) (ts.drop (place + 1)) := by
  rw [restFound found]
  rcases opens with kind | kind <;> simp only [read, kind, ok]

theorem readUnopened (found : ts[place]? = some t) (opens : t.kind = .conditionalStart ∨ t.kind = .loopStart)
    {blocks : List Open} {fault : TemplateError} (failed : opened limits t blocks = .error fault) (done : List Node) :
    read limits done blocks (ts.drop place) = .error fault := by
  rw [restFound found]
  rcases opens with kind | kind <;> simp only [read, kind, failed]

mutual

-- On the way down a function passes a token, or hands its place to one that comes before it in this order: a block that
-- starts here, a node, nodes, branches. These four are all the calls that one token can take.
theorem nodesSettle {fuel place : Nat} (closed : Closed ts) (inside : place < ts.length)
    (enough : 4 * (ts.length - place) + 2 ≤ fuel) (depth : Nat) :
    Settles (fun r => place ≤ r.2 ∧ Stops ts r.2 ∧ Goes limits ts depth place r.1 r.2) (Fails limits ts depth place)
      (nodes fuel limits ts depth place) := by
  obtain _ | fuel := fuel
  · omega
  rw [nodes]
  refine (nodeSettles closed inside (by omega) depth).bind (fun _ => id) ?_
  rintro ⟨n, next⟩ read
  cases n with
  | none =>
    obtain ⟨rfl, stops⟩ := read
    exact .returned ⟨Nat.le_refl _, stops, fun _ _ _ => rfl⟩
  | some n =>
    obtain ⟨later, inside', first⟩ := read
    simp only at later inside'
    refine (nodesSettle closed inside' (by omega) depth).bind (fun fault fails done blocks deep => ?_) ?_
    · rw [first done blocks deep, fails _ _ deep]
    · rintro ⟨ns, last⟩ ⟨more, stops, others⟩
      refine .returned ⟨Nat.le_trans (Nat.le_of_lt later) more, stops, fun done blocks deep => ?_⟩
      rw [first done blocks deep, others _ _ deep]
      simp
termination_by (ts.length - place, 2)

theorem nodeSettles {fuel place : Nat} (closed : Closed ts) (inside : place < ts.length)
    (enough : 4 * (ts.length - place) + 1 ≤ fuel) (depth : Nat) :
    Settles (fun r : Option Node × Nat => match r.1 with
        | none => r.2 = place ∧ Stops ts place
        | some n => Takes limits ts depth place n r.2)
      (Fails limits ts depth place) (node fuel limits ts depth place) := by
  obtain _ | fuel := fuel
  · omega
  obtain ⟨t, found⟩ : ∃ t, ts[place]? = some t := ⟨_, List.getElem?_eq_getElem inside⟩
  rw [node, currentFound found, pure_bind]
  cases kind : t.kind with
  | conditionalElse | conditionalEnd | loopEnd | eof => exact .returned ⟨rfl, t, found, by simp [kind]⟩
  | conditionalStart =>
    simp only [advanceFound found (by simp [kind]), pure_bind]
    refine (conditionalSettles closed found kind (by omega) depth).bind (fun _ => id) ?_
    rintro ⟨n, next⟩ taken
    exact .returned taken
  | loopStart =>
    simp only [advanceFound found (by simp [kind]), pure_bind]
    refine (loopSettles closed found kind (by omega) depth).bind (fun _ => id) ?_
    rintro ⟨n, next⟩ taken
    exact .returned taken
  | text | output | inclusion | comment =>
    have more : t.kind ≠ .eof := by simp [kind]
    simp only [advanceFound found more, pure_bind]
    cases made : leaf limits t with
    | error fault =>
      refine .refused fun done blocks _ => ?_
      simp only [restFound found, read, kind, made]
    | ok n =>
      refine .returned ⟨Nat.lt_succ_self place, passes closed found more, fun done blocks _ => ?_⟩
      simp only [restFound found, read, kind, made]
      rfl
termination_by (ts.length - place, 1)

theorem conditionalSettles {t : Token} {fuel place : Nat} (closed : Closed ts) (found : ts[place]? = some t)
    (kind : t.kind = .conditionalStart) (enough : 4 * (ts.length - place) ≤ fuel) (depth : Nat) :
    Settles (fun r => Takes limits ts depth place r.1 r.2) (Fails limits ts depth place)
      (conditional fuel limits ts depth t (place + 1)) := by
  have inside := passes closed found (by simp [kind])
  obtain _ | fuel := fuel
  · omega
  rw [conditional]
  refine (enterSettles limits t depth).bind ?_ ?_
  · rintro _ ⟨full, rfl⟩ done blocks rfl
    exact readUnopened found (.inl kind) (by rw [opened, if_pos full]) done
  rintro _ ⟨room, rfl⟩
  have begins (done : List Node) (blocks : List Open) (deep : blocks.length = depth) :
      read limits done blocks (ts.drop place) = read limits [] (⟨.thenPart t, done⟩ :: blocks) (ts.drop (place + 1)) :=
    readOpens found (.inl kind) (by rw [opened, deep, if_neg room, if_neg (by simp [kind])]) done
  refine (branchesSettle closed inside (by omega) (depth + 1) t none).bind (fun fault fails done blocks deep => ?_) ?_
  · rw [begins done blocks deep]
    exact fails done blocks (congrArg Nat.succ deep)
  · rintro ⟨⟨children, otherwise⟩, next⟩ ⟨later, inside', others⟩
    refine .returned ⟨Nat.lt_of_succ_lt later, inside', fun done blocks deep => ?_⟩
    rw [begins done blocks deep]
    exact others done blocks (congrArg Nat.succ deep)
termination_by (ts.length - place, 0)

theorem branchesSettle {fuel place : Nat} (closed : Closed ts) (inside : place < ts.length)
    (enough : 4 * (ts.length - place) + 3 ≤ fuel) (depth : Nat) (start : Token) (children : Option (List Node)) :
    Settles (fun r => place < r.2 ∧ r.2 < ts.length ∧ ∀ done blocks, blocks.length + 1 = depth →
        read limits [] (⟨partly start children, done⟩ :: blocks) (ts.drop place) =
          read limits (.conditional start.position (trimmed start) r.1.1 r.1.2 :: done) blocks (ts.drop r.2))
      (Breaks limits ts depth start children place) (branches fuel limits ts depth start children place) := by
  obtain _ | fuel := fuel
  · omega
  rw [branches]
  refine (nodesSettle closed inside (by omega) depth).bind (fun fault fails done blocks deep => fails [] _ deep) ?_
  rintro ⟨branch, next⟩ ⟨later, ⟨t, found, stops⟩, goes⟩
  have later : place ≤ next := later
  have here (done : List Node) (blocks : List Open) (deep : blocks.length + 1 = depth) :
      read limits [] (⟨partly start children, done⟩ :: blocks) (ts.drop place) =
        read limits branch.reverse (⟨partly start children, done⟩ :: blocks) (t :: ts.drop (next + 1)) := by
    rw [goes [] (⟨_, done⟩ :: blocks) deep, List.append_nil, restFound found]
  have refused {fault : TemplateError} (told : ∀ done blocks,
      read limits branch.reverse (⟨partly start children, done⟩ :: blocks) (t :: ts.drop (next + 1)) = .error fault) :
      Breaks limits ts depth start children place fault := fun done blocks deep =>
    (here done blocks deep).trans (told done blocks)
  simp only [currentFound found, pure_bind]
  simp only [List.mem_cons, List.not_mem_nil, or_false] at stops
  rcases stops with kind | kind | kind | kind
  · have more : t.kind ≠ .eof := by simp [kind]
    cases children with
    | none =>
      simp only [kind, advanceFound found more, pure_bind]
      refine (branchesSettle closed (passes closed found more) (by omega) depth start (some branch)).mono ?_ ?_
      · rintro ⟨⟨first, second⟩, last⟩ ⟨behind, inside', others⟩
        refine ⟨by simp only at behind ⊢; omega, inside', fun done blocks deep => ?_⟩
        rw [here done blocks deep, ← others done blocks deep]
        simp [read, kind, partly]
      · intro fault fails done blocks deep
        rw [here done blocks deep, ← fails done blocks deep]
        simp [read, kind, partly]
    | some children =>
      simp only [kind]
      exact .refused (refused fun done blocks => by simp [read, kind, partly])
  · have more : t.kind ≠ .eof := by simp [kind]
    cases children with
    | none =>
      simp only [kind, advanceFound found more, pure_bind]
      refine .returned ⟨Nat.lt_succ_of_le later, passes closed found more, fun done blocks deep => ?_⟩
      rw [here done blocks deep]
      simp [read, kind, partly]
    | some children =>
      simp only [kind, advanceFound found more, pure_bind]
      refine .returned ⟨Nat.lt_succ_of_le later, passes closed found more, fun done blocks deep => ?_⟩
      rw [here done blocks deep]
      simp [read, kind, partly]
  · simp only [kind]
    refine .refused (refused fun done blocks => ?_)
    cases children <;> simp [read, kind, partly, misplaced, Part.block, Part.start]
  · simp only [kind]
    refine .refused (refused fun done blocks => ?_)
    cases children <;> simp [read, kind, partly, Part.block, Part.start]
termination_by (ts.length - place, 3)

theorem loopSettles {t : Token} {fuel place : Nat} (closed : Closed ts) (found : ts[place]? = some t)
    (kind : t.kind = .loopStart) (enough : 4 * (ts.length - place) ≤ fuel) (depth : Nat) :
    Settles (fun r => Takes limits ts depth place r.1 r.2) (Fails limits ts depth place)
      (loop fuel limits ts depth t (place + 1)) := by
  have inside := passes closed found (by simp [kind])
  obtain _ | fuel := fuel
  · omega
  rw [loop]
  refine (enterSettles limits t depth).bind ?_ ?_
  · rintro _ ⟨full, rfl⟩ done blocks rfl
    exact readUnopened found (.inr kind) (by rw [opened, if_pos full]) done
  rintro _ ⟨room, rfl⟩
  cases header : Loop.header t.value with
  | error reason =>
    refine .refused fun done blocks deep => readUnopened found (.inr kind) ?_ done
    simp only [opened, deep, if_neg room, if_pos kind, header]
  | ok header' =>
    obtain ⟨name, collection⟩ := header'
    have begins (done : List Node) (blocks : List Open) (deep : blocks.length = depth) :
        read limits done blocks (ts.drop place) =
          read limits [] (⟨.loopBody t name collection, done⟩ :: blocks) (ts.drop (place + 1)) := by
      refine readOpens found (.inr kind) ?_ done
      simp only [opened, deep, if_neg room, if_pos kind, header]
    refine (nodesSettle closed inside (by omega) (depth + 1)).bind (fun fault fails done blocks deep => ?_) ?_
    · rw [begins done blocks deep]
      exact fails [] _ (congrArg Nat.succ deep)
    rintro ⟨children, next⟩ ⟨later, ⟨u, found', stops⟩, goes⟩
    have here (done : List Node) (blocks : List Open) (deep : blocks.length = depth) :
        read limits done blocks (ts.drop place) =
          read limits children.reverse (⟨.loopBody t name collection, done⟩ :: blocks) (u :: ts.drop (next + 1)) := by
      rw [begins done blocks deep, goes [] (⟨_, done⟩ :: blocks) (congrArg Nat.succ deep), List.append_nil,
        restFound found']
    have refused {fault : TemplateError} (told : ∀ done blocks,
        read limits children.reverse (⟨.loopBody t name collection, done⟩ :: blocks) (u :: ts.drop (next + 1)) =
          .error fault) : Fails limits ts depth place fault := fun done blocks deep =>
      (here done blocks deep).trans (told done blocks)
    simp only [currentFound found', pure_bind]
    simp only [List.mem_cons, List.not_mem_nil, or_false] at stops
    rcases stops with kind' | kind' | kind' | kind'
    · simp only [kind']
      exact .refused (refused fun done blocks => by simp [read, kind', misplaced, Part.block, Part.start])
    · simp only [kind']
      exact .refused (refused fun done blocks => by simp [read, kind', misplaced, Part.block, Part.start])
    · have more : u.kind ≠ .eof := by simp [kind']
      simp only [kind', advanceFound found' more, pure_bind]
      have behind : place < next := later
      refine .returned ⟨Nat.lt_succ_of_lt behind, passes closed found' more, fun done blocks deep => ?_⟩
      rw [here done blocks deep]
      simp [read, kind']
    · simp only [kind']
      exact .refused (refused fun done blocks => by simp [read, kind', Part.block, Part.start])
termination_by (ts.length - place, 0)

end

/- The descent gives what one pass over the tokens gives, whatever they are. -/
theorem parseGives {fuel : Nat} (limits : Limits) (ts : List Token) (enough : 4 * ts.length + 2 ≤ fuel) :
    parse fuel limits ts = given (ofTokens limits ts) := by
  rw [parse, ofTokens]
  split
  · rename_i closed
    have written : 0 < ts.length := by
      cases ts with
      | nil => cases closed
      | cons t ts => exact Nat.succ_pos _
    obtain ⟨⟨ns, next⟩, same, -, ⟨t, found, stops⟩, goes⟩ | ⟨fault, same, fails⟩ :=
      nodesSettle closed written enough 0
    · have whole : read limits [] [] ts = read limits ns.reverse [] (t :: ts.drop (next + 1)) := by
        rw [← restFound found, ← List.append_nil ns.reverse]
        exact goes [] [] rfl
      simp only [same, pure_bind, currentFound found, whole, read]
      simp only [List.mem_cons, List.not_mem_nil, or_false] at stops
      rcases stops with kind | kind | kind | kind <;> simp [kind, misplaced, given]
    · have whole : read limits [] [] ts = .error fault := fails [] [] rfl
      rw [same, whole]
      rfl
  · rfl

theorem failsInvalid {depth : Nat} {fault : TemplateError} (inside : place < ts.length)
    (fails : Fails limits ts depth place fault) : fault.code = .invalid :=
  readRefused (fails [] (List.replicate depth ⟨.thenPart ts[place], []⟩) (by simp))

/- What it is to come to an end for tokens: with a tree or an error in the template, the cursor on a token all the
while, and each node behind the tokens that it was read from. Four calls for each token are never exhausted. -/
structure Total (limits : Limits) (ts : List Token) : Prop where
  gives : ∀ fuel, 4 * ts.length + 2 ≤ fuel → parse fuel limits ts = given (ofTokens limits ts)
  ends : ∀ fuel, 4 * ts.length + 2 ≤ fuel → (∃ tree, parse fuel limits ts = pure tree) ∨
    ∃ fault, parse fuel limits ts = refuse fault ∧ fault.code = .invalid
  node : ∀ fuel depth, ∀ place < ts.length, 4 * (ts.length - place) + 1 ≤ fuel → Settles (fun r => match r.1 with
      | none => r.2 = place
      | some _ => place < r.2 ∧ r.2 < ts.length)
    (fun fault => fault.code = .invalid) (node fuel limits ts depth place)
  nodes : ∀ fuel depth, ∀ place < ts.length, 4 * (ts.length - place) + 2 ≤ fuel →
    Settles (fun r => place ≤ r.2 ∧ r.2 < ts.length) (fun fault => fault.code = .invalid)
      (nodes fuel limits ts depth place)

theorem total (limits : Limits) (closed : Closed ts) : Total limits ts := by
  refine ⟨fun _ => parseGives limits ts, fun fuel enough => ?_, fun fuel depth place inside enough => ?_,
    fun fuel depth place inside enough => ?_⟩
  · rw [parseGives limits ts enough]
    cases made : ofTokens limits ts with
    | ok tree => exact .inl ⟨tree, rfl⟩
    | error fault => exact .inr ⟨fault, rfl, treeRefused made⟩
  · refine (nodeSettles closed inside enough depth).mono ?_ fun _ => failsInvalid inside
    rintro ⟨n, next⟩ read
    cases n with
    | none => exact read.1
    | some n => exact ⟨read.1, read.2.1⟩
  · refine (nodesSettle closed inside enough depth).mono ?_ fun _ => failsInvalid inside
    rintro ⟨ns, next⟩ ⟨later, ⟨t, found, -⟩, -⟩
    exact ⟨later, (List.getElem?_eq_some_iff.mp found).1⟩

end Node.Descent
end Stencil
