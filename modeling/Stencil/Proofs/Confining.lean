import Mathlib
import Stencil.Files.Includes

/-! Where included templates are looked for. Names lead up and down from the directory that templates are included
from, but what is found is in it. -/
namespace Stencil

namespace Place

/- What a file or a directory can be called. -/
structure Proper (n : String) : Prop where
  written : n ≠ ""
  dotless : n ≠ "."
  down : n ≠ ".."
  whole : '/' ∉ n.toList

theorem namesPlain (path : String) : ∀ n ∈ names path, n ≠ "" ∧ n ≠ "." ∧ '/' ∉ n.toList := by
  intro n member
  obtain ⟨inside, kept⟩ := List.mem_filter.mp member
  obtain ⟨piece, cut, rfl⟩ := List.mem_map.mp inside
  simp only [Bool.and_eq_true, bne_iff_ne] at kept
  exact ⟨kept.1, kept.2, by simpa using Text.not_mem_of_mem_pieces piece cut⟩

/- A path is followed through names alone: two dots lead up, and no others stay. -/
theorem resolveProper {p : Place} (proper : ∀ n ∈ p, Proper n) (path : String) : ∀ n ∈ p.resolve path, Proper n := by
  have steps (ns : List String) (plain : ∀ n ∈ ns, n ≠ "" ∧ n ≠ "." ∧ '/' ∉ n.toList) (q : Place)
      (proper : ∀ n ∈ q, Proper n) : ∀ n ∈ ns.foldl step q, Proper n := by
    induction ns generalizing q with
    | nil => exact proper
    | cons name ns ih =>
      obtain ⟨here, others⟩ := List.forall_mem_cons.mp plain
      refine ih others (q.step name) fun n member => ?_
      rw [step] at member
      split at member
      · exact proper n (List.dropLast_subset q member)
      · rename_i down
        rcases List.mem_append.mp member with before | last
        · exact proper n before
        · obtain rfl := List.mem_singleton.mp last
          exact ⟨here.1, here.2.1, down, here.2.2⟩
  refine steps (names path) (namesPlain path) (p.origin path) ?_
  rw [origin]
  split
  · exact List.forall_mem_nil _
  · exact proper

end Place

namespace IncludeDirectory

open Place

/- The last name of a place; the root has none. -/
def lastName (p : Place) : String := p.getLastD ""

def Ends (suffix : String) (p : Place) : Prop := suffix.toList <:+ (lastName p).toList

instance (suffix : String) (p : Place) : Decidable (Ends suffix p) :=
  inferInstanceAs (Decidable (suffix.toList <:+ (lastName p).toList))

/- The place with the ending behind its last name. -/
def extended (suffix : String) (p : Place) : Place := p.dropLast ++ [lastName p ++ suffix]

/- What stops the search for an included template: a name that no path can have, and the root, to whose name no ending
can be put. -/
inductive Halts (suffix name : String) (target : Place) : Fault → Prop where
  | nullCharacter (inside : '\x00' ∈ name.toList) : Halts suffix name target .nullCharacter
  | rootName (plain : '\x00' ∉ name.toList) (root : target = []) (ending : suffix ≠ "") :
      Halts suffix name target .rootName

variable {suffix name last : String} {p base : Place}

theorem fileNamed (proper : Proper last) (whole : '/' ∉ suffix.toList) : isFileName (last ++ suffix) = true := by
  have slashless : '/' ∉ (last ++ suffix).toList := by
    rw [String.toList_append, List.mem_append, not_or]
    exact ⟨proper.whole, whole⟩
  have first : last.toList ≠ [] := fun none => proper.written (String.toList_eq_nil_iff.mp none)
  have written : last ++ suffix ≠ "" := fun none => by simp_all
  have dotless : last ++ suffix ≠ "." := by
    intro dot
    have chars : last.toList ++ suffix.toList = ['.'] := by rw [← String.toList_append, dot]; rfl
    rcases List.append_eq_singleton_iff.mp chars with ⟨none, -⟩ | ⟨alone, -⟩
    · exact first none
    · exact proper.dotless (String.toList_injective alone)
  have alone : names (last ++ suffix) = [last ++ suffix] := by
    rw [names, Text.pieces_of_not_mem slashless]
    simp [written, dotless]
  have rooted : isRooted (last ++ suffix) = false := by
    rw [isRooted, Bool.eq_false_iff]
    intro slash
    exact slashless (List.mem_of_head? (by simpa using slash))
  have ended : (last ++ suffix).toList.getLast? ≠ some '/' := fun slash => slashless (List.mem_of_getLast? slash)
  rw [isFileName, alone, rooted, bne_iff_ne.mpr ended]
  rfl

theorem endsExtended (suffix : String) (p : Place) : Ends suffix (extended suffix p) := by
  rw [Ends, lastName, extended, List.getLastD_concat, String.toList_append]
  exact List.suffix_append _ _

/- The place that a name stands for, its ending included. -/
def finished (suffix : String) (p : Place) : Place := if Ends suffix p then p else extended suffix p

theorem endsFinished (suffix : String) (p : Place) : Ends suffix (finished suffix p) := by
  rw [finished]
  split
  · assumption
  · exact endsExtended suffix p

theorem withSuffixFinished (proper : ∀ n ∈ p, Proper n) (whole : '/' ∉ suffix.toList) :
    withSuffix suffix p = if p = [] ∧ suffix ≠ "" then .error .rootName else .ok (finished suffix p) := by
  rcases List.eq_nil_or_concat' p with rfl | ⟨q, last, rfl⟩
  · by_cases none : suffix = ""
    · subst none
      rfl
    · simp [withSuffix, none]
  · have file : isFileName (last ++ suffix) = true := fileNamed (proper last (by simp)) whole
    have name : lastName (q ++ [last]) = last := List.getLastD_concat
    simp only [withSuffix, List.getLast?_concat, file, if_true, List.dropLast_concat, finished, extended, Ends, name,
      List.isSuffixOf_iff_suffix, List.append_eq_nil_iff, List.cons_ne_nil, and_false, false_and, if_false]
    split <;> rfl

theorem extendedInside (inside : base <+: p) (apart : p ≠ base) : base <+: extended suffix p := by
  rcases List.eq_nil_or_concat' p with rfl | ⟨q, last, rfl⟩
  · exact absurd (List.prefix_nil.mp inside).symm apart
  · have before : base <+: q := (List.prefix_concat_iff.mp inside).resolve_left (Ne.symm apart)
    rw [extended, List.dropLast_concat]
    exact before.trans (List.prefix_append _ _)

theorem extendedOutside (outside : ¬ base <+: p) (back : base <+: extended suffix p) : base = extended suffix p := by
  refine (List.prefix_concat_iff.mp back).resolve_right fun before => ?_
  exact outside (before.trans (List.dropLast_prefix p))

theorem finishedInside (inside : base <+: p) (apart : p ≠ base) : base <+: finished suffix p := by
  rw [finished]
  split
  · exact inside
  · exact extendedInside inside apart

theorem finishedOutside (outside : ¬ base <+: p) (back : base <+: finished suffix p) :
    finished suffix p = base ∧ finished suffix p = extended suffix p := by
  have moved : finished suffix p = extended suffix p := by
    rw [finished, if_neg]
    intro ends
    rw [finished, if_pos ends] at back
    exact outside back
  rw [moved] at back ⊢
  exact ⟨(extendedOutside outside back).symm, rfl⟩

variable {d : IncludeDirectory} {fault : Fault}

theorem placeHalts (proper : ∀ n ∈ d.base, Proper n) (whole : '/' ∉ d.suffix.toList)
    (halts : Halts d.suffix name (d.base.resolve name) fault) : d.place? name = .error fault := by
  cases halts with
  | nullCharacter inside =>
    simp only [place?, List.contains_eq_mem, decide_eq_true inside, if_true]
    rfl
  | rootName plain root ending =>
    have found := withSuffixFinished (resolveProper proper name) whole
    rw [if_pos ⟨root, ending⟩] at found
    simp only [place?, List.contains_eq_mem, decide_eq_false plain, found]
    rfl

theorem placeFinished (proper : ∀ n ∈ d.base, Proper n) (whole : '/' ∉ d.suffix.toList)
    (goes : ∀ fault, ¬ Halts d.suffix name (d.base.resolve name) fault) :
    d.place? name = .ok (if d.base <+: finished d.suffix (d.base.resolve name) then
      some (finished d.suffix (d.base.resolve name)) else none) := by
  have plain : '\x00' ∉ name.toList := fun inside => goes _ (.nullCharacter inside)
  have below : ¬ (d.base.resolve name = [] ∧ d.suffix ≠ "") := fun stops => goes _ (.rootName plain stops.1 stops.2)
  have found := withSuffixFinished (resolveProper proper name) whole
  rw [if_neg below] at found
  simp only [place?, List.contains_eq_mem, decide_eq_false plain, found]
  change Except.ok _ = _
  simp only [below?, List.isPrefixOf_iff_prefix]
  split <;> rfl

theorem placeError (proper : ∀ n ∈ d.base, Proper n) (whole : '/' ∉ d.suffix.toList) :
    d.place? name = .error fault ↔ Halts d.suffix name (d.base.resolve name) fault := by
  refine ⟨fun failed => ?_, placeHalts proper whole⟩
  by_cases stopped : ∃ other, Halts d.suffix name (d.base.resolve name) other
  · obtain ⟨other, halts⟩ := stopped
    obtain rfl := Except.error.inj (failed.symm.trans (placeHalts proper whole halts))
    exact halts
  · rw [placeFinished proper whole (not_exists.mp stopped)] at failed
    cases failed

theorem placeOk (proper : ∀ n ∈ d.base, Proper n) (whole : '/' ∉ d.suffix.toList) {found : Option Place} :
    d.place? name = .ok found ↔ (∀ fault, ¬ Halts d.suffix name (d.base.resolve name) fault) ∧
      found = if d.base <+: finished d.suffix (d.base.resolve name) then
        some (finished d.suffix (d.base.resolve name)) else none := by
  constructor
  · intro ok
    have goes (fault : Fault) (halts : Halts d.suffix name (d.base.resolve name) fault) : False := by
      rw [placeHalts proper whole halts] at ok
      cases ok
    exact ⟨goes, Except.ok.inj (ok.symm.trans (placeFinished proper whole goes))⟩
  · rintro ⟨goes, rfl⟩
    exact placeFinished proper whole goes

/- Included templates stay in their directory. Whatever the name: the search is stopped by a null character in it and
by the root, or what it finds is the directory or below it, has the ending, and is the place that the name stands for.
A name that leads out of the directory finds nothing, but for the directory itself where its own name is that of the
place with the ending; a name that leads into the directory finds its place. -/
theorem placesInside (root suffix name : String) (whole : '/' ∉ suffix.toList) :
    let d : IncludeDirectory := ⟨Place.resolve [] root, suffix⟩
    let target := d.base.resolve name
    (∀ fault, d.place? name = .error fault ↔ Halts suffix name target fault) ∧
    (∀ p, d.place? name = .ok (some p) → d.base <+: p ∧ Ends suffix p ∧ p = finished suffix target) ∧
    (d.place? name = .ok none ↔ (∀ fault, ¬ Halts suffix name target fault) ∧ ¬ d.base <+: finished suffix target) ∧
    (¬ d.base <+: target → ∀ p, d.place? name = .ok (some p) → p = d.base ∧ p = extended suffix target) ∧
    ('\x00' ∉ name.toList → d.base <+: target → target ≠ d.base → ∃ p, d.place? name = .ok (some p)) := by
  intro d target
  have proper : ∀ n ∈ d.base, Proper n := resolveProper (List.forall_mem_nil _) root
  have inside (p : Place) (found : d.place? name = .ok (some p)) :
      d.base <+: p ∧ Ends suffix p ∧ p = finished suffix target := by
    obtain ⟨-, same⟩ := (placeOk proper whole).mp found
    split at same
    · rename_i within
      cases same
      exact ⟨within, endsFinished suffix target, rfl⟩
    · cases same
  refine ⟨fun fault => placeError proper whole, inside, ?_, fun outside p found => ?_, fun plain within apart => ?_⟩
  · refine (placeOk proper whole).trans (and_congr_right fun _ => ?_)
    split
    · rename_i within
      exact iff_of_false nofun (fun out => out within)
    · rename_i out
      exact iff_of_true rfl out
  · obtain ⟨back, -, rfl⟩ := inside p found
    exact finishedOutside outside back
  · have goes (fault : Fault) (halts : Halts suffix name target fault) : False := by
      cases halts with
      | nullCharacter null => exact plain null
      | rootName _ top _ =>
        rw [top] at within apart
        exact apart (List.prefix_nil.mp within).symm
    exact ⟨_, (placeOk proper whole).mpr ⟨goes, (if_pos (finishedInside within apart)).symm⟩⟩

theorem placesInsideClimbing : '/' ∉ ".tpl".toList ∧
    ∃ p, (⟨Place.resolve [] "/w/pages", ".tpl"⟩ : IncludeDirectory).place? "a/../../pages/b" = .ok (some p) ∧
      ["w", "pages"] <+: p ∧ Ends ".tpl" p := by
  have whole : '/' ∉ ".tpl".toList := by decide
  obtain ⟨-, inside, -, -, finds⟩ := placesInside "/w/pages" ".tpl" "a/../../pages/b" whole
  obtain ⟨p, found⟩ := finds (by decide) (by decide) (by decide)
  obtain ⟨below, ends, -⟩ := inside p found
  exact ⟨whole, p, found, below, ends⟩

/- The root is outside of every other directory, but its place is not refused: it has no name to put an ending to. -/
theorem rootHalts : ¬ ∀ root suffix name : String, '/' ∉ suffix.toList →
    ∃ found, (⟨Place.resolve [] root, suffix⟩ : IncludeDirectory).place? name = .ok found := by
  intro always
  obtain ⟨found, ok⟩ := always "/w" ".tpl" "/" (by decide)
  have failed : (⟨Place.resolve [] "/w", ".tpl"⟩ : IncludeDirectory).place? "/" = .error .rootName := by decide
  rw [failed] at ok
  cases ok

end IncludeDirectory
end Stencil
