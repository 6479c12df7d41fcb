import Stencil.Proofs.Tiling

/-! Where a text looks for its end. The search goes from one place where a delimiter is read to the next, and such
a place may still open nothing, because a word goes on there. Nothing is passed over all the same. -/
namespace Stencil.Delimiters

variable {d : Delimiters} {s : List Char}

/- The loop stops at the first place behind which something is opened, or where the text ends. A delimiter that is
refused takes one character with it, so one that begins inside of it is found as well. -/
theorem nextOpeningStops (cased : d.ignoreCase = false) (s : List Char) :
    d.nextOpening d.openers s ≤ s.length ∧
      (∀ i < d.nextOpening d.openers s, d.opener? d.openers (s.drop i) = none) ∧
      (d.nextOpening d.openers s = s.length ∨
        (d.opener? d.openers (s.drop (d.nextOpening d.openers s))).isSome) := by
  rw [nextOpening_eq_textLength]
  obtain ⟨inside, plain, ends⟩ := textEnds cased s
  refine ⟨inside, fun i below => (openerUnopened cased).mpr (plain i below), ?_⟩
  rcases ends with nothing | opens
  · exact .inl (Nat.le_antisymm inside (List.drop_eq_nil_iff.mp nothing))
  · rw [← openerUnopened cased] at opens
    exact .inr (Option.isSome_iff_ne_none.mpr opens)

/- Looked for from any place of a text on, this is the first place at which a delimiter opens something, and the
end of the text if there is none. -/
theorem nextOpeningFirst {text : List Char} {start : Nat} (cased : d.ignoreCase = false)
    (inside : start ≤ text.length) :
    let found := start + d.nextOpening d.openers (text.drop start)
    start ≤ found ∧ found ≤ text.length ∧
      (∀ i, start ≤ i → i < found → d.opener? d.openers (text.drop i) = none) ∧
      (found = text.length ∨ (d.opener? d.openers (text.drop found)).isSome) := by
  obtain ⟨short, plain, ends⟩ := nextOpeningStops cased (text.drop start)
  rw [List.length_drop] at short ends
  rw [List.drop_drop] at ends
  refine ⟨Nat.le_add_right _ _, by omega, ?_, ends.imp (by omega) id⟩
  intro i later before
  have behind := plain (i - start) (by omega)
  rwa [List.drop_drop, Nat.add_sub_cancel' later] at behind

/- The opening of a loop is a word here. It is read at the first two places and opens nothing at either. -/
def sampleWords : Delimiters := { standard with loopStart := "aa" }

def sampleOverlap : List Char := "aaab aa".toList

theorem sampleOverlapEnds : sampleWords.nextOpening sampleWords.openers sampleOverlap = 5 := by cbv

theorem nextOpeningFirstOverlap : sampleWords.ignoreCase = false ∧ 0 ≤ sampleOverlap.length ∧
    (∀ i, 0 ≤ i → i < 5 → sampleWords.opener? sampleWords.openers (sampleOverlap.drop i) = none) ∧
    (sampleWords.opener? sampleWords.openers (sampleOverlap.drop 5)).isSome := by
  have cased : sampleWords.ignoreCase = false := rfl
  have first := nextOpeningFirst cased (Nat.zero_le sampleOverlap.length)
  rw [List.drop_zero, sampleOverlapEnds, Nat.zero_add] at first
  obtain ⟨-, -, plain, ends⟩ := first
  have more : 5 ≠ sampleOverlap.length := by decide
  exact ⟨cased, Nat.zero_le _, plain, ends.resolve_left more⟩

end Stencil.Delimiters
