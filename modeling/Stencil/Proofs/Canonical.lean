import Stencil.Proofs.Lexemes

/-! Canonical expressions: trees that need no parentheses but those of the groups in them. The parser gives
no others, and reads every one of them back from its lexemes. -/
namespace Stencil.Expr

/- How loosely the outermost operator binds: none, `!`, a comparison, `&&`, `||`. -/
def looseness : Expr → Nat
  | .literal _ | .path _ | .call .. | .group _ => 0
  | .not _ => 1
  | .compare .. => 2
  | .and .. => 3
  | .or .. => 4

mutual

/- No operand binds more loosely than its operator lets it, on the right side less than on the left. -/
def canonical (e : Expr) : Bool :=
  match e with
  | .literal _ | .path _ => true
  | .call _ args => canonicalAll args
  | .group e => canonical e
  | .not e => canonical e && decide (e.looseness ≤ 1)
  | .compare _ l r => canonical l && canonical r && decide (l.looseness ≤ 2) && decide (r.looseness ≤ 1)
  | .and l r => canonical l && canonical r && decide (l.looseness ≤ 3) && decide (r.looseness ≤ 2)
  | .or l r => canonical l && canonical r && decide (r.looseness ≤ 3)
termination_by structural e

def canonicalAll (es : List Expr) : Bool :=
  match es with
  | [] => true
  | e :: es => canonical e && canonicalAll es
termination_by structural es

end

/- What may stand where operators up to a bound are read. -/
def Fits (bound : Nat) (e : Expr) : Prop := e.canonical = true ∧ e.looseness ≤ bound

theorem fitsLooser {a b : Nat} {e : Expr} (fits : Fits a e) (more : a ≤ b) : Fits b e :=
  ⟨fits.1, fits.2.trans more⟩

theorem loosenessLe (e : Expr) : e.looseness ≤ 4 := by
  cases e <;> simp [looseness]

theorem canonicalAllMem {es : List Expr} : canonicalAll es = true ↔ ∀ e ∈ es, e.canonical = true := by
  induction es with
  | nil => simp [canonicalAll]
  | cons e es ih => simp [canonicalAll, ih]

theorem joinCases {l : Level} {x : Lexeme} {join : Expr → Expr → Expr} (joins : l.join? x = some join) :
    (l = .disjunction ∧ x = .operator .or ∧ join = .or) ∨
      (l = .conjunction ∧ x = .operator .and ∧ join = .and) ∨
      ∃ r, l = .comparison ∧ x = .operator (.compare r) ∧ join = .compare r := by
  unfold Level.join? at joins
  split at joins
  · exact .inl ⟨rfl, rfl, (Option.some.inj joins).symm⟩
  · exact .inr (.inl ⟨rfl, rfl, (Option.some.inj joins).symm⟩)
  · exact .inr (.inr ⟨_, rfl, rfl, (Option.some.inj joins).symm⟩)
  · cases joins

/- Every level joins an operand of its own on the left to a tighter one on the right. -/
theorem joinFits {l : Level} {x : Lexeme} {join : Expr → Expr → Expr} (joins : l.join? x = some join)
    (left right : Expr) : (join left right).looseness = l.rank + 1 ∧
      ((join left right).canonical = true ↔ Fits (l.rank + 1) left ∧ Fits l.rank right) := by
  have loose := loosenessLe left
  obtain ⟨rfl, -, rfl⟩ | ⟨rfl, -, rfl⟩ | ⟨r, rfl, -, rfl⟩ := joinCases joins <;>
    refine ⟨rfl, ?_⟩ <;>
    simp only [canonical, Fits, Level.rank, Bool.and_eq_true, decide_eq_true_eq] <;>
    tauto

/- The bound of what a phase reads. -/
def Phase.bound : Phase → Nat
  | .operand l => l.rank
  | .binary l | .chain l _ => l.rank + 1
  | .unary => 1
  | .primary => 0
  | .arguments => 4

/- What stands left of an operator when a phase begins fits there. -/
def Phase.Ready : Phase → Prop
  | .chain l left => Fits (l.rank + 1) left
  | _ => True

theorem readsCanonical {phase : Phase} {ls rest : List Lexeme} {es : List Expr}
    (reads : Reads phase ls es rest) (ready : phase.Ready) : ∀ e ∈ es, Fits phase.bound e := by
  have one {n : Nat} {e : Expr} (fits : Fits n e) : ∀ d ∈ [e], Fits n d := by simpa using fits
  have only {n : Nat} {e : Expr} (all : ∀ d ∈ [e], Fits n d) : Fits n e := by simpa using all
  induction reads with
  | disjunction _ ih | conjunction _ ih | comparison _ ih => exact ih trivial
  | binary _ _ first others =>
    have left := only (first trivial)
    exact others (fitsLooser left (Nat.le_succ _))
  | stop => exact one ready
  | step joins _ _ next others =>
    have right := only (next trivial)
    obtain ⟨loose, fits⟩ := joinFits joins _ _
    exact others ⟨fits.mpr ⟨ready, right⟩, loose.le⟩
  | @not _ e _ _ ih =>
    have inner : Fits 1 e := only (ih trivial)
    exact one ⟨by simp [canonical, inner.1, inner.2], le_refl _⟩
  | @unary _ e _ _ ih =>
    have inner : Fits 0 e := only (ih trivial)
    exact one (fitsLooser inner (Nat.zero_le _))
  | text | number | keyword | path => exact one ⟨rfl, le_refl _⟩
  | group _ ih =>
    have inner := only (ih trivial)
    exact one ⟨inner.1, le_refl _⟩
  | nullary => exact one ⟨rfl, le_refl _⟩
  | call _ _ ih => exact one ⟨canonicalAllMem.mpr (fun e member => (ih trivial e member).1), le_refl _⟩
  | last _ ih => exact ih trivial
  | more _ _ first others =>
    intro d member
    rcases List.mem_cons.mp member with rfl | later
    · exact only (first trivial)
    · exact others trivial d later

theorem parseCanonical {text : String} {e : Expr} (ok : parse text = .ok e) : e.canonical = true := by
  obtain ⟨ls, -, reads⟩ := parseReads.mp ok
  exact (readsCanonical reads trivial e (by simp)).1

end Stencil.Expr
