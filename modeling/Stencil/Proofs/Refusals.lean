import Stencil.Proofs.Escapes
import Stencil.Settings.Reader

/-! Settings that are refused. Whatever is given for them, reading it gives settings or a problem with the keys that
lead to it, but for one case: keys that a section does not know are to be listed, and two of them have no order or one
cannot be written. Texts can always be listed. -/
namespace Stencil

variable {α β : Type}

namespace Value

variable {k : Value} {xs ys keys : List Value} {f : ValueFault}

theorem insertKeyFaults (failed : insertKey k xs = .error f) : ∃ x ∈ xs, k.isBelow x = .error f := by
  induction xs with
  | nil => cases failed
  | cons x xs ih =>
    rcases boundError failed with apart | ⟨below, -, failed⟩
    · exact ⟨x, List.mem_cons_self, apart⟩
    · cases below with
      | true => cases failed
      | false =>
        rcases boundError failed with later | ⟨others, -, failed⟩
        · obtain ⟨y, member, apart⟩ := ih later
          exact ⟨y, List.mem_cons_of_mem x member, apart⟩
        · cases failed

theorem insertKeyKept (ok : insertKey k xs = .ok ys) : ys.Perm (k :: xs) := by
  induction xs generalizing ys with
  | nil =>
    cases ok
    exact .refl _
  | cons x xs ih =>
    obtain ⟨below, -, ok⟩ := boundOk ok
    cases below with
    | true =>
      cases ok
      exact .refl _
    | false =>
      obtain ⟨others, inserted, ok⟩ := boundOk ok
      cases ok
      exact ((ih inserted).cons x).trans (.swap k x xs)

/- The keys that are still to be put in, behind those that are in order already. -/
theorem sortKeysFrom (keys sorted : List Value) :
    match keys.foldlM (fun sorted k => insertKey k sorted) sorted with
    | .ok all => all.Perm (keys ++ sorted)
    | .error f => ∃ j ∈ keys, ∃ k ∈ keys ++ sorted, j.isBelow k = .error f := by
  induction keys generalizing sorted with
  | nil => exact .refl _
  | cons k keys ih =>
    rw [List.foldlM_cons]
    cases inserted : insertKey k sorted with
    | error f =>
      obtain ⟨x, member, apart⟩ := insertKeyFaults inserted
      exact ⟨k, List.mem_cons_self, x, List.mem_append_right _ member, apart⟩
    | ok more =>
      have kept := insertKeyKept inserted
      have whole : (keys ++ more).Perm (k :: keys ++ sorted) := (kept.append_left keys).trans List.perm_middle
      have others := ih more
      change match keys.foldlM (fun sorted k => insertKey k sorted) more with | .ok all => _ | .error f => _
      split at others
      · exact others.trans whole
      · obtain ⟨j, first, x, second, apart⟩ := others
        exact ⟨j, List.mem_cons_of_mem k first, x, whole.mem_iff.mp second, apart⟩

theorem unwritableMember (long : areWritable xs = false) : ∃ x ∈ xs, x.isWritable = false := by
  induction xs with
  | nil => cases long
  | cons x xs ih =>
    rw [areWritable, Bool.and_eq_false_iff] at long
    rcases long with first | others
    · exact ⟨x, List.mem_cons_self, first⟩
    · obtain ⟨y, member, long⟩ := ih others
      exact ⟨y, List.mem_cons_of_mem x member, long⟩

end Value

namespace Settings

/- Why keys cannot be listed in a message. -/
inductive Unlistable (keys : List Value) : ValueFault → Prop where
  | unordered {j k f} (first : j ∈ keys) (second : k ∈ keys) (apart : j.isBelow k = .error f) : Unlistable keys f
  | unwritable {k} (member : k ∈ keys) (long : k.isWritable = false) : Unlistable keys .unwritable

theorem listedFaults {keys : List Value} {f : ValueFault} (failed : listed keys = .error f) : Unlistable keys f := by
  have sorted := Value.sortKeysFrom keys []
  rw [List.append_nil] at sorted
  rw [listed, Value.sortKeys] at failed
  split at failed
  · rename_i all found
    rw [found] at sorted
    split at failed
    · cases failed
    · rename_i long
      cases failed
      obtain ⟨k, member, long⟩ := Value.unwritableMember (Bool.eq_false_iff.mpr long)
      exact .unwritable (sorted.mem_iff.mp member) long
  · rename_i f' found
    rw [found] at sorted
    obtain ⟨j, first, k, second, apart⟩ := sorted
    exact Except.error.inj failed ▸ .unordered first second apart

theorem textsListed {keys : List Value} {f : ValueFault} (texts : ∀ k ∈ keys, ∃ s, k = .str s) :
    ¬ Unlistable keys f := by
  rintro (⟨first, second, apart⟩ | ⟨member, long⟩)
  · obtain ⟨s, rfl⟩ := texts _ first
    obtain ⟨t, rfl⟩ := texts _ second
    cases apart
  · obtain ⟨s, rfl⟩ := texts _ member
    cases long

/- What may be said where a reading fails. -/
def Fails (P : SettingsFault → Prop) (x : Except SettingsFault α) : Prop := ∀ e, x = .error e → P e

theorem Fails.ok {P : SettingsFault → Prop} (a : α) : Fails P (.ok a) := by
  intro e failed
  cases failed

theorem Fails.bind {P : SettingsFault → Prop} {x : Except SettingsFault α} {f : α → Except SettingsFault β}
    (first : Fails P x) (next : ∀ a, x = .ok a → Fails P (f a)) : Fails P (x >>= f) := by
  intro e failed
  rcases boundError failed with failed | ⟨a, ok, failed⟩
  · exact first e failed
  · exact next a ok e failed

/- A problem at the end of a path, or behind it. -/
def Beneath (path : List String) (e : SettingsFault) : Prop := ∃ rest problem, e = .at (path ++ rest) problem

theorem expectedBeneath (what : String) (path : List String) (v : Value) :
    Fails (Beneath path) (expected what path v : Except SettingsFault α) := by
  intro e failed
  cases failed
  exact ⟨[], _, by rw [List.append_nil]⟩

theorem boolBeneath (path : List String) (v : Value) : Fails (Beneath path) (bool path v) := by
  unfold bool
  split
  · exact .ok _
  · simp only
    split
    · exact .ok _
    · split
      · exact .ok _
      · exact expectedBeneath _ _ _
  · exact expectedBeneath _ _ _

theorem intBeneath (path : List String) (v : Value) : Fails (Beneath path) (int path v) := by
  unfold int
  split
  · exact .ok _
  · exact expectedBeneath _ _ _

theorem realBeneath (path : List String) (v : Value) : Fails (Beneath path) (real path v) := by
  unfold real
  simp only
  split
  · exact .ok _
  · exact expectedBeneath _ _ _

theorem textBeneath (path : List String) (v : Value) : Fails (Beneath path) (text path v) := by
  unfold text
  split
  · exact .ok _
  · exact expectedBeneath _ _ _

theorem callableBeneath (path : List String) (v : Value) : Fails (Beneath path) (callable path v) := by
  unfold callable
  split
  · exact .ok _
  · exact expectedBeneath _ _ _

theorem deeper {path : List String} (name : String) {x : Except SettingsFault α}
    (fails : Fails (Beneath (path ++ [name])) x) : Fails (Beneath path) x := by
  intro e failed
  obtain ⟨rest, problem, rfl⟩ := fails e failed
  exact ⟨name :: rest, problem, by rw [List.append_assoc, List.singleton_append]⟩

theorem entriesBeneath {read : Reader α} (reads : ∀ path v, Fails (Beneath path) (read path v)) (path : List String)
    (es : List (Value × Value)) : Fails (Beneath path) (entries read path es) := by
  induction es with
  | nil => exact .ok _
  | cons entry es ih =>
    exact .bind (deeper "<key>" (textBeneath _ _)) fun name _ =>
      .bind (deeper name (reads _ _)) fun _ _ => .bind ih fun _ _ => .ok _

theorem mappingBeneath {read : Reader α} (reads : ∀ path v, Fails (Beneath path) (read path v)) (path : List String)
    (v : Value) : Fails (Beneath path) (mapping read path v) := by
  unfold mapping
  split
  · exact .bind (entriesBeneath reads path _) fun _ _ => .ok _
  · exact expectedBeneath _ _ _

/- What may be said of a section that cannot be read: a problem with all of it or with one of its fields, or keys that
are none of its fields and cannot be listed. -/
inductive Misread (names path : List String) (v : Value) : SettingsFault → Prop where
  | whole (problem : SettingsProblem) : Misread names path v (.at path problem)
  | field {name} (known : name ∈ names) (rest : List String) (problem : SettingsProblem) :
      Misread names path v (.at (path ++ name :: rest) problem)
  | unlisted {es f} (given : v = .map es) (unlistable : Unlistable (unknownKeys names es) f) :
      Misread names path v (.value f)

variable {names path : List String} {v : Value}

theorem sectionMisread (title : String) (names path : List String) (v : Value) :
    Fails (Misread names path v) (section? title names path v) := by
  unfold section?
  split
  · exact .ok _
  · split
    · exact .ok _
    · intro e failed
      split at failed
      · cases failed
        exact .whole _
      · rename_i fault found
        cases failed
        exact .unlisted rfl (listedFaults found)
  · intro e failed
    cases failed
    exact .whole _

theorem fieldMisread {read : Reader α} (reads : ∀ path v, Fails (Beneath path) (read path v)) (es : Entries)
    {name : String} (standard : α) (known : name ∈ names) :
    Fails (Misread names path v) (field es path name read standard) := by
  unfold field
  split
  · intro e failed
    obtain ⟨rest, problem, rfl⟩ := reads _ _ e failed
    rw [List.append_assoc]
    exact .field known rest problem
  · exact .ok _

theorem acceptMisread (x : Except SettingsProblem α) : Fails (Misread names path v) (accept path x) := by
  intro e failed
  cases x with
  | ok a => cases failed
  | error problem =>
    cases failed
    exact .whole problem

theorem sectionGiven {title : String} {es : Entries} (ok : section? title names path v = .ok es) :
    v = .map es ∨ es = [] := by
  unfold section? at ok
  split at ok
  · exact .inr (Except.ok.inj ok).symm
  · split at ok
    · exact .inl (congrArg Value.map (Except.ok.inj ok))
    · split at ok <;> cases ok
  · cases ok

end Settings

open Settings

theorem Delimiters.readMisread (path : List String) (v : Value) :
    Fails (Misread (Delimiters.standard.named.map (·.1) ++ ["ignore_case"]) path v) (Delimiters.read path v) := by
  unfold Delimiters.read
  refine .bind (sectionMisread _ _ _ _) fun es _ => ?_
  iterate 10 refine .bind (fieldMisread textBeneath es _ (by simp [Delimiters.named])) fun _ _ => ?_
  exact .bind (fieldMisread boolBeneath es _ (by simp)) fun _ _ => acceptMisread _

theorem Limits.readMisread (path : List String) (v : Value) :
    Fails (Misread ["max_depth", "allow_empty_variables"] path v) (Limits.read path v) :=
  .bind (sectionMisread _ _ _ _) fun es _ => .bind (fieldMisread intBeneath es _ (by simp)) fun _ _ =>
    .bind (fieldMisread boolBeneath es _ (by simp)) fun _ _ => acceptMisread _

theorem RenderOptions.readMisread (path : List String) (v : Value) :
    Fails (Misread RenderOptions.names path v) (RenderOptions.read path v) := by
  have switch (path : List String) (v : Value) :
      Fails (Beneath path) (do return Switch.ofBool (← bool path v)) := .bind (boolBeneath path v) fun _ _ => .ok _
  have timeout (path : List String) (v : Value) :
      Fails (Beneath path) (do return Timeout.real (← real path v)) := .bind (realBeneath path v) fun _ _ => .ok _
  have anything (path : List String) (v : Value) : Fails (Beneath path) (anything path v) := .ok v
  unfold RenderOptions.read
  refine .bind (sectionMisread _ _ _ _) fun es _ => ?_
  refine .bind (fieldMisread switch es _ (by simp [names])) fun _ _ => ?_
  refine .bind (fieldMisread timeout es _ (by simp [names])) fun _ _ => ?_
  refine .bind (fieldMisread switch es _ (by simp [names])) fun _ _ => ?_
  refine .bind (fieldMisread (mappingBeneath anything) es _ (by simp [names])) fun _ _ => ?_
  exact .bind (fieldMisread (mappingBeneath callableBeneath) es _ (by simp [names])) fun _ _ => acceptMisread _

theorem CacheSettings.readMisread (path : List String) (v : Value) :
    Fails (Misread ["enabled", "max_entries"] path v) (CacheSettings.read path v) :=
  .bind (sectionMisread _ _ _ _) fun es _ => .bind (fieldMisread boolBeneath es _ (by simp)) fun _ _ =>
    .bind (fieldMisread intBeneath es _ (by simp)) fun _ _ => acceptMisread _

theorem IncludeSettings.readMisread (path : List String) (v : Value) :
    Fails (Misread ["dir", "suffix"] path v) (IncludeSettings.read path v) :=
  .bind (sectionMisread _ _ _ _) fun es _ => .bind (fieldMisread textBeneath es _ (by simp)) fun _ _ =>
    .bind (fieldMisread textBeneath es _ (by simp)) fun _ _ => .ok _

namespace Settings

/- The sections of the settings, each with its fields. -/
def sections : List (String × List String) := [
  ("lexer", Delimiters.standard.named.map (·.1) ++ ["ignore_case"]),
  ("parser", ["max_depth", "allow_empty_variables"]), ("render", RenderOptions.names),
  ("cache", ["enabled", "max_entries"]), ("includes", ["dir", "suffix"])]

def fields : List String := sections.map (·.1) ++ ["max_include_depth"]

/- Keys that are none of the sections, or none of the fields of the section that they stand in. -/
inductive UnknownIn (v : Value) : List Value → Prop where
  | whole {es} (given : v = .map es) : UnknownIn v (unknownKeys fields es)
  | part {name names part} {es : Entries} (listed : (name, names) ∈ sections) (given : v = .map es)
      (found : es.get? name = some (.map part)) : UnknownIn v (unknownKeys names part)

/- What may be said of settings that cannot be read. -/
inductive Unread (v : Value) : SettingsFault → Prop where
  | whole (problem : SettingsProblem) : Unread v (.at [] problem)
  | part {name} (known : name ∈ fields) (rest : List String) (problem : SettingsProblem) :
      Unread v (.at (name :: rest) problem)
  | unlisted {keys f} (unknown : UnknownIn v keys) (unlistable : Unlistable keys f) : Unread v (.value f)

theorem misreadWhole {e : SettingsFault} (misread : Misread fields [] v e) : Unread v e := by
  cases misread with
  | whole problem => exact .whole problem
  | field known rest problem => exact .part known rest problem
  | unlisted given unlistable => exact .unlisted (.whole given) unlistable

theorem partUnread {read : Reader α} {name : String} {names : List String} {es : Entries}
    (given : v = .map es ∨ es = []) (listed : (name, names) ∈ sections)
    (reads : ∀ path v, Fails (Misread names path v) (read path v)) (standard : α) :
    Fails (Unread v) (field es [] name read standard) := by
  unfold field
  split
  · rename_i w found
    intro e failed
    have known : name ∈ fields := List.mem_append_left _ (List.mem_map_of_mem listed)
    cases reads _ _ e failed with
    | whole problem => exact .part known [] problem
    | field _ rest problem => exact .part known _ problem
    | unlisted part unlistable =>
      have whole : v = .map es := given.resolve_right (by rintro rfl; cases found)
      exact .unlisted (.part listed whole (found.trans (congrArg some part))) unlistable
  · exact .ok _

theorem readUnread (v : Value) : Fails (Unread v) (Settings.read v) := by
  unfold Settings.read
  refine .bind (fun e failed => misreadWhole (sectionMisread _ fields _ _ e failed)) fun es opened => ?_
  have given := sectionGiven opened
  refine .bind (partUnread given (by simp [sections]) Delimiters.readMisread _) fun _ _ => ?_
  refine .bind (partUnread given (by simp [sections]) Limits.readMisread _) fun _ _ => ?_
  refine .bind (partUnread given (by simp [sections]) RenderOptions.readMisread _) fun _ _ => ?_
  refine .bind (partUnread given (by simp [sections]) CacheSettings.readMisread _) fun _ _ => ?_
  refine .bind (partUnread given (by simp [sections]) IncludeSettings.readMisread _) fun _ _ => ?_
  refine .bind (fun e failed => misreadWhole ?_) fun _ _ => .ok _
  exact fieldMisread intBeneath es _ (by simp [fields]) e failed

/- Reading settings never fails but with a problem and the keys that lead to it, or because keys that are unknown cannot
be listed. So it never does if these are texts; and if those beside the sections cannot be listed, it does. -/
theorem readOrReported (v : Value) :
    ((∃ s, Settings.read v = .ok s) ∨
      (∃ path problem, Settings.read v = .error (.at path problem) ∧ ∀ name ∈ path.head?, name ∈ fields) ∨
      ∃ keys f, Settings.read v = .error (.value f) ∧ UnknownIn v keys ∧ Unlistable keys f) ∧
    ((∀ keys, UnknownIn v keys → ∀ k ∈ keys, ∃ s, k = .str s) →
      (∃ s, Settings.read v = .ok s) ∨ ∃ path problem, Settings.read v = .error (.at path problem)) ∧
    ∀ es f, v = .map es → listed (unknownKeys fields es) = .error f → Settings.read v = .error (.value f) := by
  have outcome : (∃ s, Settings.read v = .ok s) ∨
      (∃ path problem, Settings.read v = .error (.at path problem) ∧ ∀ name ∈ path.head?, name ∈ fields) ∨
      ∃ keys f, Settings.read v = .error (.value f) ∧ UnknownIn v keys ∧ Unlistable keys f := by
    cases failed : Settings.read v with
    | ok s => exact .inl ⟨s, rfl⟩
    | error e =>
      refine .inr ?_
      cases readUnread v e failed with
      | whole problem => exact .inl ⟨[], problem, rfl, by simp⟩
      | part known rest problem => exact .inl ⟨_, problem, rfl, by simpa using known⟩
      | unlisted unknown unlistable => exact .inr ⟨_, _, rfl, unknown, unlistable⟩
  refine ⟨outcome, ?_, ?_⟩
  · intro texts
    rcases outcome with ok | ⟨path, problem, failed, -⟩ | ⟨keys, f, -, unknown, unlistable⟩
    · exact .inl ok
    · exact .inr ⟨path, problem, failed⟩
    · exact absurd unlistable (textsListed (texts keys unknown))
  · rintro es f rfl failed
    have some : (unknownKeys fields es).isEmpty = false := by
      rw [Bool.eq_false_iff]
      intro none
      rw [List.isEmpty_iff.mp none] at failed
      cases failed
    have shut : section? "EngineConfig" fields [] (.map es) = .error (.value f) := by
      simp only [section?, some, failed, Bool.false_eq_true, if_false]
    rw [Settings.read]
    exact congrArg (· >>= _) shut

/- A key that is misspelt, which is a text. -/
def sampleMisspelt : Value := .map [(.str "parsers", .null)]

theorem readOrReportedMisspelt :
    (∀ keys, UnknownIn sampleMisspelt keys → ∀ k ∈ keys, ∃ s, k = .str s) ∧
    ((∃ s, Settings.read sampleMisspelt = .ok s) ∨
      ∃ path problem, Settings.read sampleMisspelt = .error (.at path problem)) := by
  have texts : ∀ keys, UnknownIn sampleMisspelt keys → ∀ k ∈ keys, ∃ s, k = .str s := by
    intro keys unknown k member
    cases unknown with
    | whole given =>
      cases given
      exact ⟨"parsers", List.mem_singleton.mp (List.mem_filter.mp member).1⟩
    | part listed given found =>
      cases given
      have none : ∀ s ∈ sections, Entries.get? [(.str "parsers", .null)] s.1 = none := by
        simp [sections, Entries.get?, Value.isText]
      rw [none _ listed] at found
      cases found
  exact ⟨texts, (readOrReported sampleMisspelt).2.1 texts⟩

/- Two keys of which one is a number. -/
def sampleMixed : Value := .map [(.int 0, .int 1), (.str "a", .int 2)]

theorem mixedKeysEscape : Settings.read sampleMixed = .error (.value (.unordered "str" "int")) ∧
    (∀ s, Settings.read sampleMixed ≠ .ok s) ∧
    ∀ path problem, Settings.read sampleMixed ≠ .error (.at path problem) := by
  have failed : Settings.read sampleMixed = .error (.value (.unordered "str" "int")) := by rfl
  rw [failed]
  exact ⟨rfl, by simp, by simp⟩

end Settings
end Stencil
