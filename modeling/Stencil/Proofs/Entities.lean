import Mathlib.Data.List.Infix
import Stencil.Text.Markup

/-! Entities. Replacing the characters one after the other gives what replacing all of them at once would, and the
text can be read back from what is written for it. -/
namespace Stencil.Text

/- What a table of replacements says of one character. -/
def imageIn (table : List (Char × List Char)) (c : Char) : List Char := (table.lookup c).getD [c]

/- The entities themselves: five characters have one. -/
def entity : Char → List Char
  | '&' => "&amp;".toList
  | '<' => "&lt;".toList
  | '>' => "&gt;".toList
  | '"' => "&quot;".toList
  | '\'' => "&#x27;".toList
  | c => [c]

variable {table : List (Char × List Char)} {c d : Char} {s : List Char}

theorem imageMissing (absent : ∀ e ∈ table, e.1 ≠ c) : imageIn table c = [c] := by
  have none : table.lookup c = none := by
    rw [List.lookup_eq_none_iff]
    intro e member
    simpa using (absent e member).symm
  rw [imageIn, none]
  rfl

theorem imagesMissing (absent : ∀ e ∈ table, e.1 ∉ s) : s.flatMap (imageIn table) = s := by
  induction s with
  | nil => rfl
  | cons c s ih =>
    have here : imageIn table c = [c] :=
      imageMissing fun e member same => absent e member (same ▸ List.mem_cons_self)
    have others := ih fun e member inside => absent e member (List.mem_cons_of_mem c inside)
    rw [List.flatMap_cons, here, others]
    rfl

/- If no image holds a character whose turn is still to come, no pass changes what an earlier one wrote. -/
theorem replacedInTurn (settled : table.Pairwise (fun e f => f.1 ∉ e.2)) (s : List Char) :
    table.foldl (fun s e => replaced e.1 e.2 s) s = s.flatMap (imageIn table) := by
  induction table generalizing s with
  | nil => exact (imagesMissing (by simp)).symm
  | cons e table ih =>
    obtain ⟨later, settled⟩ := List.pairwise_cons.mp settled
    have first (x : Char) :
        (if x = e.1 then e.2 else [x]).flatMap (imageIn table) = imageIn (e :: table) x := by
      by_cases same : x = e.1
      · have found : (e :: table).lookup x = some e.2 := by rw [same, List.lookup_cons_self]
        rw [if_pos same, imagesMissing later, imageIn, found]
        rfl
      · have differs : (x == e.1) = false := by simpa using same
        rw [if_neg same, List.flatMap_singleton, imageIn, imageIn, List.lookup_cons, differs]
    rw [List.foldl_cons, ih settled, replaced, List.flatMap_assoc]
    exact congrArg s.flatMap (funext first)

/- A code in which no image begins another can be read from the front. -/
theorem prefixFreeReads {code : Char → List Char} (written : ∀ c, code c ≠ [])
    (apart : ∀ c d, code c <+: code d → c = d) : Function.Injective (fun s : List Char => s.flatMap code) := by
  intro s t same
  induction s generalizing t with
  | nil =>
    cases t with
    | nil => rfl
    | cons d t => exact absurd (List.append_eq_nil_iff.mp same.symm).1 (written d)
  | cons c s ih =>
    cases t with
    | nil => exact absurd (List.append_eq_nil_iff.mp same).1 (written c)
    | cons d t =>
      replace same : code c ++ s.flatMap code = code d ++ t.flatMap code := same
      obtain rfl : c = d := by
        have front : code c <+: code d ++ t.flatMap code := ⟨_, same⟩
        rcases List.prefix_or_prefix_of_prefix front (List.prefix_append _ _) with begins | begins
        · exact apart c d begins
        · exact (apart d c begins).symm
      rw [ih (List.append_cancel_left same)]

theorem entityListed (c : Char) : imageIn entities c = entity c := by
  unfold entity
  split
  case h_6 amp less greater double single =>
    refine imageMissing ?_
    simp only [entities, List.forall_mem_cons]
    exact ⟨Ne.symm amp, Ne.symm less, Ne.symm greater, Ne.symm double, Ne.symm single, by simp⟩
  all_goals rfl

theorem escapedAtOnce (s : List Char) : escapeHtml s = s.flatMap entity := by
  rw [← funext entityListed]
  exact replacedInTurn (by decide) s

/- Either the table has an image for a character, or the character stays and no image is its own. -/
theorem entityFound (c : Char) : (c, entity c) ∈ entities ∨ entity c = [c] ∧ ∀ e ∈ entities, e.1 ≠ c := by
  cases found : entities.lookup c with
  | some image =>
    have here : entity c = image := by rw [← entityListed, imageIn, found]; rfl
    obtain ⟨before, after, split, -⟩ := List.lookup_eq_some_iff.mp found
    exact .inl (by rw [here, split]; simp)
  | none =>
    have absent : ∀ e ∈ entities, e.1 ≠ c := by
      intro e member same
      simpa [same] using List.lookup_eq_none_iff.mp found e member
    exact .inr ⟨entityListed c ▸ imageMissing absent, absent⟩

/- An entity is longer than a character, and its ampersand is its first character and no other. -/
theorem entitiesFormed : ∀ e ∈ entities, 1 < e.2.length ∧ e.2.head? = some '&' ∧ '&' ∉ e.2.tail := by decide

theorem entitiesApart : ∀ e ∈ entities, ∀ f ∈ entities, e.2 <+: f.2 → e.1 = f.1 := by decide

theorem entityWritten (c : Char) : entity c ≠ [] := by
  rcases entityFound c with found | ⟨plain, -⟩
  · exact List.ne_nil_of_length_pos (Nat.lt_of_succ_lt (entitiesFormed _ found).1)
  · rw [plain]
    exact List.cons_ne_nil c []

theorem ampersandReplaced {c : Char} (absent : ∀ e ∈ entities, e.1 ≠ c) : c ≠ '&' :=
  (absent ('&', "&amp;".toList) (by decide)).symm

theorem entityApart (c d : Char) (begins : entity c <+: entity d) : c = d := by
  rcases entityFound c with found | ⟨plain, absent⟩ <;> rcases entityFound d with found' | ⟨plain', -⟩
  · exact entitiesApart _ found _ found' begins
  · have long : 1 < (entity c).length := (entitiesFormed _ found).1
    have short := begins.length_le
    rw [plain', List.length_singleton] at short
    omega
  · obtain ⟨rest, whole⟩ := begins
    have first := (entitiesFormed _ found').2.1
    rw [← whole, plain] at first
    exact absurd (Option.some.inj first) (ampersandReplaced absent)
  · rw [plain, plain', List.cons_prefix_cons] at begins
    exact begins.1

theorem entityHarmless {c x : Char} (inside : x ∈ entity c) : x ∉ ['<', '>', '"', '\''] := by
  rcases entityFound c with found | ⟨plain, absent⟩
  · have harmless : ∀ e ∈ entities, ∀ x ∈ e.2, x ∉ ['<', '>', '"', '\''] := by simp [entities]
    exact harmless _ found x inside
  · rw [plain, List.mem_singleton] at inside
    have replaced : ∀ x ∈ ['<', '>', '"', '\''], ∃ e ∈ entities, e.1 = x := by simp [entities]
    intro special
    obtain ⟨e, member, same⟩ := replaced x special
    exact absent e member (same.trans inside)

/- An ampersand inside what is written for one character is the first of an entity. -/
theorem ampersandFirst {c : Char} {front behind : List Char} (inside : entity c = front ++ '&' :: behind) :
    front = [] ∧ (c, entity c) ∈ entities := by
  rcases entityFound c with found | ⟨plain, absent⟩
  · refine ⟨?_, found⟩
    cases front with
    | nil => rfl
    | cons x front =>
      have once := (entitiesFormed _ found).2.2
      rw [inside] at once
      exact absurd (List.mem_append_right front List.mem_cons_self) once
  · rw [plain] at inside
    have same : '&' = c := List.mem_singleton.mp (inside ▸ List.mem_append_right front List.mem_cons_self)
    exact absurd same.symm (ampersandReplaced absent)

theorem ampersandBegins {s front behind : List Char} (written : s.flatMap entity = front ++ '&' :: behind) :
    ∃ e ∈ entities, e.2 <+: '&' :: behind := by
  induction s generalizing front with
  | nil => simp at written
  | cons c s ih =>
    rw [List.flatMap_cons] at written
    obtain ⟨middle, -, others⟩ | ⟨middle, split, whole⟩ := List.append_eq_append_iff.mp written
    · exact ih others
    · cases middle with
      | nil =>
        have again : s.flatMap entity = [] ++ '&' :: behind := whole.symm
        exact ih again
      | cons x middle =>
        obtain ⟨rfl, rfl⟩ := List.cons.inj whole
        obtain ⟨rfl, found⟩ := ampersandFirst split
        rw [List.nil_append] at split
        exact ⟨_, found, split ▸ ⟨_, rfl⟩⟩

/- Writing entities is one substitution of characters. Nothing is left in the text that markup could begin or end
with, but for the ampersands of the entities themselves, and no two texts are written alike. -/
theorem escapesLosslessly :
    (∀ s, escapeHtml s = s.flatMap entity) ∧
    (∀ s t, escapeHtml (s ++ t) = escapeHtml s ++ escapeHtml t) ∧
    (∀ s, ∀ c ∈ escapeHtml s, c ∉ ['<', '>', '"', '\'']) ∧
    (∀ s front behind, escapeHtml s = front ++ '&' :: behind → ∃ e ∈ entities, e.2 <+: '&' :: behind) ∧
    Function.Injective escapeHtml := by
  refine ⟨escapedAtOnce, ?_, ?_, ?_, ?_⟩
  · intro s t
    simp only [escapedAtOnce, List.flatMap_append]
  · intro s c inside
    rw [escapedAtOnce, List.mem_flatMap] at inside
    obtain ⟨x, -, inside⟩ := inside
    exact entityHarmless inside
  · intro s front behind written
    exact ampersandBegins (escapedAtOnce s ▸ written)
  · rw [funext escapedAtOnce]
    exact prefixFreeReads entityWritten entityApart

/- A text that holds what looks like entities. -/
theorem escapesLosslesslyNested :
    escapeHtml "&lt;'".toList = "&amp;lt;&#x27;".toList ∧ ∃ e ∈ entities, e.2 <+: "&#x27;".toList :=
  have written : escapeHtml "&lt;'".toList = "&amp;lt;".toList ++ '&' :: "#x27;".toList := by decide
  ⟨written, escapesLosslessly.2.2.2.1 _ _ _ written⟩

end Stencil.Text
