import Stencil.Proofs.Canonical
import Stencil.Proofs.Directives
import Stencil.Proofs.Spelling

/-! Quotes and parentheses around a place. The scanner that looks for separators outside of them and the lexer
agree on where they begin and end, so that behind an expression the scanner stands where it stood before. -/
namespace Stencil

open Stencil.Expr Text

namespace Text

/- Behind the text the scanner stands between no quotes, and what follows is marked as it is alone. -/
def Leads (d : Nat) (s : List Char) (d' : Nat) : Prop :=
  ∀ t, outside d none (s ++ t) = outside d none s ++ outside d' none t

/- Neither a quote nor a parenthesis. -/
def Flat (c : Char) : Prop := isQuote c = false ∧ c ≠ '(' ∧ c ≠ ')'

instance (c : Char) : Decidable (Flat c) := inferInstanceAs (Decidable (_ ∧ _ ∧ _))

theorem flatOf {c : Char} {sort : Char → Bool} (known : sort ∈ Plain.sorts) (holds : sort c = true) : Flat c := by
  have apart : Plain.sorts.all (fun sort => ['(', ')'].all (fun c => !sort c)) = true := by decide +kernel
  have differs : ∀ d ∈ ['(', ')'], c ≠ d := by
    rintro d member rfl
    have never := List.all_eq_true.mp (List.all_eq_true.mp apart sort known) c member
    simp [holds] at never
  exact ⟨(Plain.ordinaryOf known holds).1, differs _ (by simp), differs _ (by simp)⟩

theorem flatMark {c : Char} (flat : Flat c) (d : Nat) (t : List Char) :
    outside d none (c :: t) = (d == 0) :: outside d none t := by
  rw [outside, flat.1, if_neg Bool.false_ne_true, if_neg flat.2.1, if_neg flat.2.2]

theorem flatMarks {s : List Char} (flat : ∀ c ∈ s, Flat c) (d : Nat) (t : List Char) :
    (s ++ t).zip (outside d none (s ++ t)) = s.map (·, d == 0) ++ t.zip (outside d none t) := by
  induction s with
  | nil => rfl
  | cons c s ih =>
    obtain ⟨here, others⟩ := List.forall_mem_cons.mp flat
    rw [List.cons_append, flatMark here, List.zip_cons_cons, ih others]
    rfl

namespace Leads

variable {d d' d'' : Nat} {c : Char} {s t : List Char} {n : Nat}

theorem nil : Leads d [] d := fun _ => rfl

theorem marks (leads : Leads d s d') (t : List Char) : (s ++ t).zip (outside d none (s ++ t)) =
    s.zip (outside d none s) ++ t.zip (outside d' none t) := by
  rw [leads t]
  exact List.zip_append (by rw [length_outside])

theorem append (first : Leads d s d') (second : Leads d' t d'') : Leads d (s ++ t) d'' := by
  intro u
  rw [List.append_assoc, first, second, first, List.append_assoc]

theorem ofFlat (flat : ∀ c ∈ s, Flat c) : Leads d s d := by
  intro t
  induction s with
  | nil => rfl
  | cons c s ih =>
    obtain ⟨here, others⟩ := List.forall_mem_cons.mp flat
    rw [List.cons_append, flatMark here, flatMark here, ih others, List.cons_append]

theorem opening : Leads d ['('] (d + 1) := by
  intro t
  simp [outside, isQuote]

theorem closing : Leads d [')'] (d - 1) := by
  intro t
  simp [outside, isQuote]

/- All of a text in quotes is inside. -/
theorem quotedMarks (quote : isQuote c = true) (closed : closingQuote? c s = some n) (t : List Char) :
    outside d none (c :: (s.take (n + 1) ++ t)) = List.replicate (n + 2) false ++ outside d none t := by
  rw [outside, quote, if_pos rfl, Plain.outsideClosed (quoteSign quote).2 closed]
  rfl

theorem quoted (quote : isQuote c = true) (closed : closingQuote? c s = some n) : Leads d (c :: s.take (n + 1)) d := by
  intro t
  have alone := @quotedMarks d c s n quote closed []
  rw [List.append_nil] at alone
  rw [List.cons_append, quotedMarks quote closed, alone]
  simp [outside]

end Leads

end Text

/- How deep in parentheses what follows a lexeme stands. -/
def Lexeme.deepen (d : Nat) : Lexeme → Nat
  | .opening => d + 1
  | .closing => d - 1
  | _ => d

namespace Expr

/- The characters of a lexeme: those of a text stand between quotes, a parenthesis stands alone, and the others
hold neither quotes nor parentheses nor blanks. -/
inductive Takes (c : Char) (s : List Char) : Lexeme → Nat → Prop where
  | quoted {n text} (quote : isQuote c = true) (closed : closingQuote? c s = some n) : Takes c s (.text text) (n + 1)
  | opening (mark : c = '(') : Takes c s .opening 0
  | closing (mark : c = ')') : Takes c s .closing 0
  | flat {l n} (flat : ∀ b ∈ c :: s.take n, Flat b ∧ isBlank b = false) (level : ∀ d, l.deepen d = d) : Takes c s l n

theorem lexemeTakes {c : Char} {s : List Char} {l : Lexeme} {n : Nat} (found : lexeme? c s = some (l, n)) :
    Takes c s l n := by
  have solid {b : Char} (other : isBlank b = true → False) : isBlank b = false := Bool.eq_false_iff.mpr other
  have named : ∀ b ∈ s.take (nameLength s), Flat b ∧ isBlank b = false := by
    intro b member
    rcases nameChars s b member with part | rfl
    · refine ⟨flatOf (by simp [Plain.sorts]) part, solid fun blank => ?_⟩
      have inert := blankInert blank
      simp [isNameRest, inert.word, inert.other '$' (by simp [signs])] at part
    · decide
  have started (start : isNameStart c = true) : ∀ b ∈ c :: s.take (nameLength s), Flat b ∧ isBlank b = false :=
    List.forall_mem_cons.mpr ⟨⟨flatOf (by simp [Plain.sorts]) start, (startInitial start).solid⟩, named⟩
  cases lexemeBegins found with
  | text quote closed => exact .quoted quote closed
  | @number m digits =>
    obtain ⟨some, chars⟩ := Plain.numberChars digits
    obtain ⟨m, rfl⟩ := Nat.exists_eq_succ_of_ne_zero (Nat.ne_of_gt some)
    refine .flat (fun b member => ?_) (fun _ => rfl)
    rcases chars b member with decimal | point
    · refine ⟨flatOf (by simp [Plain.sorts]) decimal, solid fun blank => ?_⟩
      simp [(blankInert blank).decimal] at decimal
    · have points : ['.', '-'].all (fun b => Flat b ∧ isBlank b = false) = true := by decide
      exact of_decide_eq_true (List.all_eq_true.mp points b point)
  | @operator o first =>
    have starts : o.spelling.toList.isPrefixOf (c :: s) = true := by simpa using List.find?_some first
    have chars : Operator.all.all (fun p => !p.spelling.toList.isEmpty &&
        p.spelling.toList.all (fun b => Flat b ∧ isBlank b = false)) = true := by decide
    have char := List.all_eq_true.mp chars o (List.mem_of_find?_eq_some first)
    simp only [Bool.and_eq_true, Bool.not_eq_true', List.isEmpty_eq_false_iff, List.all_eq_true,
      decide_eq_true_eq] at char
    obtain ⟨solid, flat⟩ := char
    obtain ⟨t, whole⟩ := List.isPrefixOf_iff_prefix.mp starts
    refine .flat ?_ (fun _ => rfl)
    cases spelled : o.spelling.toList with
    | nil => exact absurd spelled solid
    | cons b r =>
      rw [spelled] at whole flat
      obtain ⟨rfl, rfl⟩ := List.cons.inj whole
      have size : o.spelling.length - 1 = r.length := by rw [← String.length_toList, spelled]; rfl
      rw [size]
      simpa using flat
  | mark mark other =>
    have reads {x : Lexeme} (mark : (c, x) ∈ [('(', Lexeme.opening), (')', .closing), (',', .comma)]) : l = x := by
      have alone := (markRead mark s).2
      rw [found] at alone
      cases alone
      rfl
    rcases mark with rfl | rfl | rfl
    · exact reads (x := .opening) (by simp) ▸ .opening rfl
    · exact reads (x := .closing) (by simp) ▸ .closing rfl
    · have comma : Flat ',' ∧ isBlank ',' = false := by decide
      exact reads (x := .comma) (by simp) ▸ .flat (by simpa using comma) (fun _ => rfl)
  | keyword start | name start => exact .flat (started start) (fun _ => rfl)

variable {c : Char} {s : List Char} {l : Lexeme} {n d : Nat}

theorem Takes.leads (takes : Takes c s l n) : Leads d (c :: s.take n) (l.deepen d) := by
  cases takes with
  | quoted quote closed => exact .quoted quote closed
  | opening mark => exact mark ▸ .opening
  | closing mark => exact mark ▸ .closing
  | flat flat level => exact (level d).symm ▸ .ofFlat fun b member => (flat b member).1

/- A blank in a lexeme stands in a text, of which no character is outside. -/
theorem Takes.inside (takes : Takes c s l n) :
    (∀ b ∈ c :: s.take n, isBlank b = false) ∨ ∀ m ∈ outside d none (c :: s.take n), m = false := by
  cases takes with
  | quoted quote closed =>
    have alone := @Leads.quotedMarks d c s _ quote closed []
    rw [List.append_nil] at alone
    simp [alone, outside]
  | opening mark =>
    have solid : isBlank '(' = false := by decide
    exact .inl (by simpa [mark] using solid)
  | closing mark =>
    have solid : isBlank ')' = false := by decide
    exact .inl (by simpa [mark] using solid)
  | flat flat level => exact .inl fun b member => (flat b member).2

theorem lexesLeads {ls : List Lexeme} (lexed : Lexes s ls) (d : Nat) : Leads d s (ls.foldl Lexeme.deepen d) := by
  induction lexed generalizing d with
  | nil => exact .nil
  | @blank c s ls blank _ ih =>
    have flat : ∀ b ∈ [c], Flat b := by simpa using flatOf (by simp [Plain.sorts]) blank
    exact (Leads.ofFlat flat).append (ih d)
  | @lexeme c s l n ls solid found _ ih =>
    have whole : c :: s = (c :: s.take n) ++ s.drop n := by simp
    rw [whole]
    exact (lexemeTakes found).leads.append (ih _)

/- The parentheses that are open when a phase begins and are closed at its end. -/
def Phase.opened : Phase → Nat
  | .arguments => 1
  | _ => 0

theorem readsLevel {phase : Phase} {ls rest : List Lexeme} {es : List Expr} (reads : Reads phase ls es rest) (d : Nat) :
    ls.foldl Lexeme.deepen (d + phase.opened) = rest.foldl Lexeme.deepen d := by
  induction reads generalizing d with
  | disjunction _ ih | conjunction _ ih | comparison _ ih | unary _ ih | not _ ih => exact ih d
  | binary _ _ first others => exact (first d).trans (others d)
  | stop | text | number | keyword | path | nullary => rfl
  | step joins _ _ next others =>
    obtain ⟨-, rfl, -⟩ | ⟨-, rfl, -⟩ | ⟨r, -, rfl, -⟩ := joinCases joins <;> exact (next d).trans (others d)
  | group _ ih => exact ih (d + 1)
  | call _ _ ih => exact ih d
  | last _ ih => exact ih (d + 1)
  | more _ _ first others => exact (first (d + 1)).trans (others d)

/- Behind an expression the scanner is as deep as in front of it. -/
theorem parseLeads {text : String} {e : Expr} (ok : parse text = .ok e) (d : Nat) : Leads d text.toList d := by
  obtain ⟨ls, lexed, reads⟩ := parseReads.mp ok
  have level : ls.foldl Lexeme.deepen d = d := readsLevel reads d
  have leads := lexesLeads lexed d
  rwa [level] at leads

end Expr
end Stencil
