import Stencil.Proofs.Indexing

/-! Where a path leads. It ends at a part of the tree or nowhere, unless it comes to a sequence with a segment that
is taken for an index and is no integer. -/
namespace Stencil

open Text

namespace Value

/- A value in a tree: the tree itself, or what stands in an element or under a key, to any depth. -/
inductive Inside (v : Value) : Value → Prop where
  | self : Inside v v
  | element {tree items x} (sequence : tree.items? = some items) (member : x ∈ items) (deeper : Inside v x) :
      Inside v tree
  | entry {entries key x} (member : (key, x) ∈ entries) (deeper : Inside v x) : Inside v (.map entries)

end Value

namespace Path

/- Where an index points to in a sequence; a negative one counts from the end. -/
def place (items : List Value) (index : Int) : Nat := (if index < 0 then index + items.length else index).toNat

/- One step down: to what a mapping has under a key, or to the element at an index within a sequence. -/
inductive Descends (segment : String) : Value → Value → Prop where
  | key {entries x} (found : Entries.get? entries segment = some x) : Descends segment (.map entries) x
  | index {tree items n x} (sequence : tree.items? = some items) (marked : looksLikeIndex segment = true)
      (read : readInteger segment = .ok n) (least : -(items.length : Int) ≤ n) (most : n < items.length)
      (found : items[place items n]? = some x) : Descends segment tree x

inductive Leads : Value → List String → Value → Prop where
  | here {v} : Leads v [] v
  | further {tree segment x rest v} (first : Descends segment tree x) (others : Leads x rest v) :
      Leads tree (segment :: rest) v

/- The text of an integer: decimal digits of any script, behind one minus sign at most, and no more of them than
are read. -/
structure IntegerText (segment : String) : Prop where
  signed : segment.toList.length ≤ (segment.toList.dropWhile (· == '-')).length + 1
  decimal : ∀ c ∈ segment.toList.dropWhile (· == '-'), isDecimal c = true
  short : (segment.toList.dropWhile (· == '-')).length ≤ ValueFault.maxDigits

theorem descendsInside {segment : String} {tree x v : Value} (descends : Descends segment tree x)
    (inside : v.Inside x) : v.Inside tree := by
  cases descends with
  | @key entries x found =>
    obtain ⟨entry, here, rfl⟩ := Option.map_eq_some_iff.mp found
    exact .entry (List.mem_of_find?_eq_some here) inside
  | index sequence _ _ _ _ found => exact .element sequence (List.mem_of_getElem? found) inside

theorem leadsInside {segments : List String} {tree v : Value} (leads : Leads tree segments v) : v.Inside tree := by
  induction leads with
  | here => exact .self
  | further first _ ih => exact descendsInside first ih

/- What stands in a text that is taken for an index behind the minus signs: digits, be they decimal or not. -/
structure Figure (c : Char) : Prop where
  solid : isBlank c = false
  read : (Reader.asciiDigit c).isDigit = isDecimal c
  other : Reader.asciiDigit c ∉ ['-', '+', '_']

theorem digitFigure {c : Char} (digit : isDigit c = true) : Figure c := by
  have apart : ∀ n ∈ Expr.codes decimalBounds ++ Expr.codes otherDigitBounds, within blankBounds n = false ∧
      n ∉ ['-', '+', '_'].map Char.toNat := by decide +kernel
  have value : ∀ v < 10, (Char.ofNat (48 + v)).isDigit = true ∧ Char.ofNat (48 + v) ∉ ['-', '+', '_'] := by decide
  have decimals : decimalBounds.length % 2 = 0 := by decide +kernel
  have others : otherDigitBounds.length % 2 = 0 := by decide +kernel
  have member : c.toNat ∈ Expr.codes decimalBounds ++ Expr.codes otherDigitBounds := by
    rw [isDigit, Bool.or_eq_true] at digit
    exact List.mem_append.mpr (digit.imp (Expr.withinCodes decimals) (Expr.withinCodes others))
  obtain ⟨solid, sign⟩ := apart c.toNat member
  have noSign : c ∉ ['-', '+', '_'] := fun same => sign (List.mem_map_of_mem same)
  cases decimal : isDecimal c with
  | true =>
    have read : Reader.asciiDigit c = Char.ofNat (48 + (c.toNat - runStart decimalBounds c.toNat) % 10) := by
      simp [Reader.asciiDigit, decimalValue?, decimal]
    obtain ⟨shown, apart⟩ := value _ (Nat.mod_lt (c.toNat - runStart decimalBounds c.toNat) (by omega))
    exact ⟨solid, by rw [read, shown, decimal], by rwa [read]⟩
  | false =>
    have kept : Reader.asciiDigit c = c := by simp [Reader.asciiDigit, decimalValue?, decimal]
    have plain : c.isDigit = false := by
      by_contra ascii
      rw [Bool.not_eq_false] at ascii
      rw [(Expr.digitNumeral ascii).decimal] at decimal
      cases decimal
    exact ⟨solid, by rw [kept, plain, decimal], by rwa [kept]⟩

/- A text that is taken for an index, cut behind its minus signs. -/
theorem indexCut {segment : String} (marked : looksLikeIndex segment = true) :
    ∃ signs ds, segment.toList = List.replicate signs '-' ++ ds ∧ segment.toList.dropWhile (· == '-') = ds ∧
      ds ≠ [] ∧ ∀ c ∈ ds, Figure c := by
  simp only [looksLikeIndex, Bool.and_eq_true, Bool.not_eq_true', List.isEmpty_eq_false_iff, List.all_eq_true] at marked
  obtain ⟨written, digits⟩ := marked
  have figures : ∀ c ∈ segment.toList.dropWhile (· == '-'), Figure c := fun c member => digitFigure (digits c member)
  refine ⟨(segment.toList.takeWhile (· == '-')).length, _, ?_, rfl, written, figures⟩
  have signs : segment.toList.takeWhile (· == '-') =
      List.replicate (segment.toList.takeWhile (· == '-')).length '-' := by
    refine List.eq_replicate_of_mem fun c member => ?_
    simpa using List.all_eq_true.mp (List.all_takeWhile (p := (· == '-'))) c member
  rw [← signs, List.takeWhile_append_dropWhile]

/- One minus sign is a sign; the digits behind it are read in their ASCII form. -/
theorem figuresSigned {signs : Nat} {ds : List Char} (figures : ∀ c ∈ ds, Figure c) (written : ds ≠ [])
    (few : signs ≤ 1) : Reader.sign (List.replicate signs '-' ++ ds.map Reader.asciiDigit) =
      (signs == 1, ds.map Reader.asciiDigit) := by
  rcases Nat.le_one_iff_eq_zero_or_eq_one.mp few with rfl | rfl
  · obtain ⟨c, rest, rfl⟩ := List.exists_cons_of_ne_nil written
    have other := (figures c List.mem_cons_self).other
    rw [List.replicate_zero, List.nil_append, List.map_cons, Reader.sign]
    · rfl
    · rintro d same
      exact other (by simp [(List.cons.inj same).1])
    · rintro d same
      exact other (by simp [(List.cons.inj same).1])
  · rfl

theorem figuresDecimal {ds : List Char} (figures : ∀ c ∈ ds, Figure c) (decimal : ∀ c ∈ ds, isDecimal c = true) :
    ∀ c ∈ ds.map Reader.asciiDigit, Expr.Numeral c := by
  intro c member
  obtain ⟨d, inside, rfl⟩ := List.mem_map.mp member
  exact Expr.digitNumeral (by rw [(figures d inside).read, decimal d inside])

/- A text that is taken for an index is read if and only if it is the text of an integer. -/
theorem indexRead {segment : String} (marked : looksLikeIndex segment = true) :
    (∃ n, readInteger segment = .ok n) ↔ IntegerText segment := by
  obtain ⟨signs, ds, spelled, behind, written, figures⟩ := indexCut marked
  have size : segment.toList.length = signs + ds.length := by rw [spelled, List.length_append, List.length_replicate]
  have mapped : (Reader.trimMargin segment.toList).map Reader.asciiDigit =
      List.replicate signs '-' ++ ds.map Reader.asciiDigit := by
    have minus : isBlank '-' = false ∧ Reader.asciiDigit '-' = '-' := by decide
    have solid : ∀ c ∈ segment.toList, isBlank c = false := by
      intro c member
      rw [spelled] at member
      rcases List.mem_append.mp member with sign | digit
      · rw [List.eq_of_mem_replicate sign, minus.1]
      · exact (figures c digit).solid
    rw [Expr.marginSolid (fun c first => solid c (List.mem_of_mem_head? first))
      (fun c last => solid c (List.mem_of_getLast? last)), spelled, List.map_append, List.map_replicate, minus.2]
  constructor
  · rintro ⟨n, read⟩
    rw [readInteger] at read
    split at read
    · rename_i number
      obtain ⟨all, digits, joined, short, -⟩ := Expr.numberGrouped number
      rw [mapped] at all joined
      -- A second minus sign would be left among the digits.
      have few : signs ≤ 1 := by
        by_contra many
        obtain ⟨k, rfl⟩ := Nat.exists_eq_add_of_le' (Nat.not_le.mp many)
        have minus := List.all_eq_true.mp all '-' (by simp [Reader.sign, List.replicate_succ])
        revert minus
        decide
      rw [figuresSigned figures written few] at all joined
      have decimal : ∀ c ∈ ds, isDecimal c = true := by
        intro c member
        have digit := List.all_eq_true.mp all _ (List.mem_map_of_mem member)
        have other := (figures c member).other
        simp only [List.mem_cons, not_or] at other
        simpa [Expr.grouped, other.2.2, (figures c member).read] using digit
      rw [Expr.joinedDigits (figuresDecimal figures decimal), Option.some.injEq] at joined
      rw [← joined, List.length_map] at short
      exact ⟨by rw [behind, size]; omega, by rwa [behind], by rwa [behind]⟩
    · cases read
    · cases read
  · rintro ⟨signed, decimal, short⟩
    rw [behind] at signed decimal short
    have numerals := figuresDecimal figures decimal
    have all : ∀ c ∈ ds.map Reader.asciiDigit, (c.isDigit || decide (c = '_')) = true := by
      intro c member
      simp [(numerals c member).digit]
    have whole := List.takeWhile_eq_self_iff.mpr all
    obtain ⟨d, rest, some⟩ := List.exists_cons_of_ne_nil (show ds.map Reader.asciiDigit ≠ [] by simpa using written)
    rw [← List.length_map (f := Reader.asciiDigit)] at short
    refine ⟨if signs == 1 then -(Reader.natOf (ds.map Reader.asciiDigit) : Int)
      else Reader.natOf (ds.map Reader.asciiDigit), ?_⟩
    rw [readInteger, Reader.integer, mapped, figuresSigned figures written (by omega)]
    simp only [whole, Expr.joinedDigits numerals, List.all_eq_true.mpr all, if_true]
    rw [some] at short ⊢
    simp only [if_neg (Nat.not_lt.mpr short)]

theorem readFamily {segment : String} {f : ValueFault} (failed : readInteger segment = .error f) :
    f.family = .value := by
  rw [readInteger] at failed
  split at failed
  · cases failed
  · cases failed
    rfl
  · cases failed
    rfl

/- An index within the sequence gives the element there, and any other gives nothing. -/
theorem elementEnds (items : List Value) (n : Int) : element items n = .missing ∨
    -(items.length : Int) ≤ n ∧ n < items.length ∧ items[place items n]? = some (element items n) := by
  by_cases within : -(items.length : Int) ≤ n ∧ n < items.length
  · obtain ⟨least, most⟩ := within
    have before : ¬ (if n < 0 then n + items.length else n) < 0 := by split <;> omega
    have inside : place items n < items.length := by
      rw [place]
      split <;> omega
    have taken : element items n = items.getD (place items n) .missing := if_neg before
    refine .inr ⟨least, most, ?_⟩
    rw [taken, List.getD_eq_getElem _ _ inside, List.getElem?_eq_getElem inside]
  · left
    have taken : element items n = if (if n < 0 then n + items.length else n) < 0 then .missing
        else items.getD (place items n) .missing := rfl
    rw [taken]
    by_cases before : (if n < 0 then n + items.length else n) < 0
    · rw [if_pos before]
    · rw [if_neg before, List.getD_eq_default]
      rw [place]
      split <;> rename_i sign <;> simp only [sign, if_true, if_false] at before <;> omega

/- Where a walk comes to a halt: at a sequence, with what is taken for an index and is no integer. -/
structure Blocked (segment : String) (tree : Value) : Prop where
  sequence : tree.isSequence = true
  marked : looksLikeIndex segment = true
  noInteger : ¬ IntegerText segment

theorem blockedFails {segment : String} {tree : Value} (blocked : Blocked segment tree) :
    ∃ f, step tree segment = .error f ∧ f.family = .value := by
  obtain ⟨sequence, marked, noInteger⟩ := blocked
  cases read : readInteger segment with
  | ok n => exact absurd ((indexRead marked).mp ⟨n, read⟩) noInteger
  | error f =>
    refine ⟨f, ?_, readFamily read⟩
    cases tree with
    | list items | tuple items =>
      rw [step, if_pos marked, read]
      rfl
    | null | missing | str | bool | int | float | date | moment | time | set | callable | map => cases sequence

theorem stepEnds (tree : Value) (segment : String) :
    (∃ x, step tree segment = .ok x ∧ (x = .missing ∨ Descends segment tree x)) ∨ Blocked segment tree := by
  cases tree with
  | map entries =>
    refine .inl ?_
    cases found : Entries.get? entries segment with
    | none => exact ⟨.missing, by rw [step, found]; rfl, .inl rfl⟩
    | some x => exact ⟨x, by rw [step, found]; rfl, .inr (.key found)⟩
  | list items | tuple items =>
    cases marked : looksLikeIndex segment with
    | false => exact .inl ⟨.missing, by simp [step, marked], .inl rfl⟩
    | true =>
      by_cases integer : IntegerText segment
      · obtain ⟨n, read⟩ := (indexRead marked).mpr integer
        refine .inl ⟨element items n, by simp [step, marked, read, Except.map], ?_⟩
        rcases elementEnds items n with nothing | ⟨least, most, found⟩
        · exact .inl nothing
        · exact .inr (.index rfl marked read least most found)
      · exact .inr ⟨rfl, marked, integer⟩
  | null | missing | str | bool | int | float | date | moment | time | set | callable =>
    exact .inl ⟨.missing, rfl, .inl rfl⟩

/- A walk comes to its end or to nothing, or it comes to a halt at one of its segments. -/
theorem walkEnds (tree : Value) (segments : List String) :
    (∃ v, walk tree segments = .ok v ∧ (v = .missing ∨ Leads tree segments v)) ∨
      ∃ before segment rest whole f, segments = before ++ segment :: rest ∧ Leads tree before whole ∧
        Blocked segment whole ∧ walk tree segments = .error f ∧ f.family = .value := by
  induction segments generalizing tree with
  | nil => exact .inl ⟨tree, rfl, .inr .here⟩
  | cons segment rest ih =>
    rcases stepEnds tree segment with ⟨x, stepped, ends⟩ | blocked
    · have onward : walk tree (segment :: rest) = walk x rest := by rw [walk, stepped]; rfl
      rw [onward]
      rcases ends with rfl | descends
      · exact .inl ⟨.missing, walk_missing rest, .inl rfl⟩
      · rcases ih x with ⟨v, walked, ends⟩ | ⟨before, part, after, whole, f, rfl, leads, blocked, halted⟩
        · exact .inl ⟨v, walked, ends.imp_right (.further descends)⟩
        · exact .inr ⟨segment :: before, part, after, whole, f, rfl, .further descends leads, blocked, halted⟩
    · obtain ⟨f, failed, family⟩ := blockedFails blocked
      exact .inr ⟨[], segment, rest, tree, f, rfl, .here, blocked, by rw [walk, failed]; rfl, family⟩

/- The lookup of a path gives what the path leads to in the tree, or nothing. -/
def Resolves (tree : Value) (path : String) : Prop :=
  ∃ v, resolve tree path = .ok v ∧ (v = .missing ∨ Leads tree (segments path) v ∧ v.Inside tree)

/- It fails at a sequence, because of an index that is no integer. -/
def Halts (tree : Value) (path : String) : Prop :=
  ∃ before segment rest whole f, segments path = before ++ segment :: rest ∧ Leads tree before whole ∧
    Blocked segment whole ∧ resolve tree path = .error f ∧ f.family = .value

theorem resolveEnds (tree : Value) (path : String) : Resolves tree path ∨ Halts tree path := by
  cases parts : segments path with
  | nil => exact .inl ⟨.missing, by rw [resolve, parts], .inl rfl⟩
  | cons segment rest =>
    have walked : resolve tree path = walk tree (segments path) := by rw [resolve, parts]
    rw [Resolves, Halts, walked]
    refine (walkEnds tree (segments path)).imp_left ?_
    rintro ⟨v, found, ends⟩
    exact ⟨v, found, ends.imp_right fun leads => ⟨leads, leadsInside leads⟩⟩

/- A tree in which the keys lead to a value, one below the other. -/
def nested (keys : List String) (v : Value) : Value := keys.foldr (fun key inner => .map [(.str key, inner)]) v

theorem nestedWalk (keys rest : List String) (v : Value) : walk (nested keys v) (keys ++ rest) = walk v rest := by
  induction keys with
  | nil => rfl
  | cons key keys ih =>
    have stepped : step (nested (key :: keys) v) key = .ok (nested keys v) := by
      simp [nested, step, Entries.get?, Value.isText]
    rw [List.cons_append, walk, stepped]
    exact ih

/- Every lookup of a path gives a part of the tree or nothing, or it fails at a sequence with an index that is no
integer. So a path can be looked up in every tree if and only if all that it has for indexes are integers. -/
theorem resolvesInside (path : String) : (∀ tree, Resolves tree path ∨ Halts tree path) ∧
    ((∀ tree, Resolves tree path) ↔
      ∀ segment ∈ segments path, looksLikeIndex segment = true → IntegerText segment) := by
  refine ⟨fun tree => resolveEnds tree path, ?_, ?_⟩
  · intro always segment member marked
    by_contra noInteger
    obtain ⟨before, rest, parts⟩ := List.append_of_mem member
    obtain ⟨v, found, -⟩ := always (nested before (.list []))
    have walked : resolve (nested before (.list [])) path = walk (.list []) (segment :: rest) := by
      rw [← nestedWalk before, ← parts, resolve]
      cases before <;> simp [parts]
    have blocked : Blocked segment (.list []) := ⟨rfl, marked, noInteger⟩
    obtain ⟨f, failed, -⟩ := blockedFails blocked
    rw [walked, walk, failed] at found
    cases found
  · intro integers tree
    refine (resolveEnds tree path).resolve_right ?_
    rintro ⟨before, segment, rest, whole, f, parts, -, blocked, -⟩
    exact blocked.noInteger (integers segment (by simp [parts]) blocked.marked)

/- A superscript is a digit, but no integer is written with it. -/
theorem superscriptHalts : ¬ ∀ tree path, Resolves tree path := by
  intro always
  obtain ⟨v, found, -⟩ := always (.map [(.str "xs", .list [.int 1])]) "xs.²"
  have failed : resolve (.map [(.str "xs", .list [.int 1])]) "xs.²" = .error (.notInteger 10 "²") := by cbv
  rw [failed] at found
  cases found

end Path
end Stencil
