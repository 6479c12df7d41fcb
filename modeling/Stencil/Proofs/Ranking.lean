import Mathlib
import Stencil.Proofs.Covering

/-! What is said of many results together: how many of them failed, which paths were used, and which were missing most
often. A name with more occurrences comes first; of those with as many, the one that was met before the others. -/
namespace Stencil

/- Counting one more occurrence of a name: it is added at the end if it is new, and nothing else changes. -/
theorem bumpCounted {x : String} {names : List String} {n : String → Nat} (distinct : names.Nodup)
    (fresh : x ∉ names → n x = 0) :
    bump x (names.map fun y => (y, n y)) = (appendNew x names).map fun y => (y, n y + if y = x then 1 else 0) := by
  induction names with
  | nil => simp [bump, appendNew, fresh]
  | cons y names ih =>
    obtain ⟨apart, distinct⟩ := List.nodup_cons.mp distinct
    rw [List.map_cons, bump]
    by_cases here : y = x
    · subst here
      have others : names.map (fun z => (z, n z)) = names.map fun z => (z, n z + if z = y then 1 else 0) := by
        refine List.map_congr_left fun z member => ?_
        have other : z ≠ y := fun same => apart (same ▸ member)
        simp [other]
      simp [appendNew, others]
    · have grown : appendNew x (y :: names) = y :: appendNew x names := by
        simp only [appendNew, List.contains_cons, beq_false_of_ne (Ne.symm here), Bool.false_or]
        split <;> rfl
      have later := ih distinct fun absent => fresh (by simp [Ne.symm here, absent])
      rw [if_neg here, later, grown, List.map_cons]
      simp [here]

theorem namesDistinct (names : List String) : (names.foldl (fun seen name => appendNew name seen) []).Nodup :=
  (Template.namesOrdered names).2.imp fun earlier => ne_of_apply_ne names.idxOf (Nat.ne_of_lt earlier)

/- The table of the names: each once, in the order in which they are first met, with its number of occurrences. -/
theorem tallyCounted (names : List String) :
    tally names = (names.foldl (fun seen name => appendNew name seen) []).map fun x => (x, names.count x) := by
  induction names using List.reverseRecOn with
  | nil => rfl
  | append_singleton names name ih =>
    obtain ⟨members, -⟩ := Template.namesOrdered names
    have fresh := fun absent => List.count_eq_zero.mpr (mt (members name).mpr absent)
    rw [tally, List.foldl_append, List.foldl_cons, List.foldl_nil, ← tally, ih, List.foldl_append, List.foldl_cons,
      List.foldl_nil, bumpCounted (namesDistinct names) fresh]
    refine List.map_congr_left fun x _ => ?_
    rw [List.count_append, List.count_singleton]
    by_cases here : x = name
    · simp [here]
    · simp [here, Ne.symm here]

/- Of two names, this one is to come first. -/
def Outranks (names : List String) (x y : String) : Prop :=
  names.count y < names.count x ∨ names.count x = names.count y ∧ names.idxOf x < names.idxOf y

theorem tallyFound {names : List String} {p : String × Nat} :
    p ∈ tally names ↔ p.1 ∈ names ∧ p.2 = names.count p.1 := by
  obtain ⟨members, -⟩ := Template.namesOrdered names
  rw [tallyCounted, List.mem_map]
  constructor
  · rintro ⟨x, member, rfl⟩
    exact ⟨(members x).mp member, rfl⟩
  · rintro ⟨member, counted⟩
    exact ⟨p.1, (members p.1).mpr member, by rw [← counted]⟩

theorem tallyLength (names : List String) : (tally names).length = names.toFinset.card := by
  obtain ⟨members, -⟩ := Template.namesOrdered names
  rw [tallyCounted, List.length_map, ← List.toFinset_card_of_nodup (namesDistinct names), List.toFinset.ext members]

theorem tallyOrdered (names : List String) :
    (tally names).Pairwise fun p q => names.idxOf p.1 < names.idxOf q.1 := by
  obtain ⟨-, ordered⟩ := Template.namesOrdered names
  rw [tallyCounted, List.pairwise_map]
  exact ordered

theorem countsTotal (p q : String × Nat) : (decide (q.2 ≤ p.2) || decide (p.2 ≤ q.2)) = true := by
  simp only [Bool.or_eq_true, decide_eq_true_eq]
  omega

theorem countsTrans (p q r : String × Nat) (first : decide (q.2 ≤ p.2) = true) (second : decide (r.2 ≤ q.2) = true) :
    decide (r.2 ≤ p.2) = true := by
  simp only [decide_eq_true_eq] at first second ⊢
  omega

/- Rows with one count keep their order. -/
theorem byCountStable (rows : List (String × Nat)) (n : Nat) :
    (byCount rows).filter (·.2 = n) = rows.filter (·.2 = n) := by
  have level : (rows.filter (·.2 = n)).Pairwise fun p q => decide (q.2 ≤ p.2) = true := by
    refine List.pairwise_of_forall_mem_list fun p first q second => ?_
    have same := of_decide_eq_true (List.mem_filter.mp first).2
    have same' := of_decide_eq_true (List.mem_filter.mp second).2
    exact decide_eq_true (by rw [same, same'])
  have kept := (List.sublist_mergeSort countsTrans countsTotal level List.filter_sublist).filter (·.2 = n)
  simp only [List.filter_filter, Bool.and_self] at kept
  -- As many rows have this count before the sort as behind it.
  refine (kept.eq_of_length ?_).symm
  rw [← List.countP_eq_length_filter, ← List.countP_eq_length_filter]
  exact ((List.mergeSort_perm rows _).countP_eq _).symm

/- Sorting by the counts alone ranks the names. -/
theorem tallyRanked (names : List String) :
    (byCount (tally names)).Pairwise fun p q => Outranks names p.1 q.1 := by
  have sorted := List.pairwise_mergeSort countsTrans countsTotal (tally names)
  have ordered := tallyOrdered names
  rw [List.pairwise_iff_forall_sublist] at sorted ordered ⊢
  intro p q placed
  have inside := placed.subset
  simp only [byCount, List.cons_subset, List.mem_mergeSort, List.nil_subset, and_true, tallyFound] at inside
  obtain ⟨⟨-, counted⟩, -, counted'⟩ := inside
  have more : q.2 ≤ p.2 := of_decide_eq_true (sorted placed)
  rcases Nat.lt_or_eq_of_le more with fewer | same
  · exact .inl (by rwa [← counted, ← counted'])
  · -- Both stand among the rows with this count, and in the order of the table.
    have level := placed.filter (·.2 = p.2)
    rw [byCountStable] at level
    simp only [same, decide_true, List.filter_cons_of_pos, List.filter_nil] at level
    exact .inr ⟨by rw [← counted, ← counted', same], ordered (level.trans List.filter_sublist)⟩

namespace RenderStatistics

/- Whatever the results: the paths that were missing most often are shown, ten at most, each with the number of times it
was missing, and none is left out that is to come before one of them; the used paths stand each once and as they are
first met; and each render has either succeeded or failed. -/
theorem ranksMissing (results : List RenderResult) :
    let missing := results.flatMap (·.missing)
    let used := results.flatMap (·.used)
    let s := RenderStatistics.of results
    (s.commonMissing.length = min 10 missing.toFinset.card ∧
      (∀ p ∈ s.commonMissing, p.1 ∈ missing ∧ p.2 = missing.count p.1) ∧
      s.commonMissing.Pairwise (fun p q => Outranks missing p.1 q.1) ∧
      ∀ path ∈ missing, path ∉ s.commonMissing.map (·.1) →
        ∀ p ∈ s.commonMissing, Outranks missing p.1 path) ∧
    ((∀ path, path ∈ s.used ↔ path ∈ used) ∧ s.used.Pairwise fun a b => used.idxOf a < used.idxOf b) ∧
    s.total = results.length ∧ s.succeeded = results.countP (·.succeeded) ∧
    s.failed = results.countP (fun r => !r.succeeded) ∧ s.total = s.succeeded + s.failed := by
  intro missing used s
  have ranked := tallyRanked missing
  have found {p : String × Nat} : p ∈ byCount (tally missing) ↔ p.1 ∈ missing ∧ p.2 = missing.count p.1 := by
    rw [byCount, List.mem_mergeSort, tallyFound]
  have shown : s.commonMissing = (byCount (tally missing)).take 10 := rfl
  have good : s.succeeded = results.countP (·.succeeded) := List.countP_eq_length_filter.symm
  have whole : results.length = results.countP (·.succeeded) + results.countP (fun r => !r.succeeded) := by
    simpa using results.length_eq_countP_add_countP (·.succeeded)
  have bad : s.failed = results.countP (fun r => !r.succeeded) := by
    change results.length - s.succeeded = _
    rw [good, whole, Nat.add_sub_cancel_left]
  refine ⟨⟨?_, ?_, ?_, ?_⟩, Template.namesOrdered used, rfl, good, bad, ?_⟩
  · rw [shown, List.length_take, byCount, List.length_mergeSort, tallyLength]
  · intro p member
    exact found.mp (List.mem_of_mem_take (shown ▸ member))
  · rw [shown]
    exact ranked.sublist (List.take_sublist _ _)
  · intro path member omitted p first
    have later : (path, missing.count path) ∈ (byCount (tally missing)).drop 10 := by
      have inside := found.mpr (show (path, missing.count path).1 ∈ missing ∧ _ from ⟨member, rfl⟩)
      rw [← List.take_append_drop 10 (byCount _), List.mem_append] at inside
      refine inside.resolve_left fun listed => omitted ?_
      exact List.mem_map.mpr ⟨_, shown ▸ listed, rfl⟩
    rw [← List.take_append_drop 10 (byCount _), List.pairwise_append] at ranked
    exact ranked.2.2 p (shown ▸ first) _ later
  · rw [good, bad]
    exact whole

end RenderStatistics
end Stencil
