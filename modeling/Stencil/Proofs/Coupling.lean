import Mathlib
import Stencil.Expr.Eval

/-! Computations that go hand in hand. Two of them are coupled by a relation between their states if, begun
in related states, they end the same way: with the same value or the same failure, and in related
states. A computation that is coupled with itself keeps the relation. -/
namespace Stencil

variable {ε ε' σ τ α β : Type}

inductive Ends (R : σ → τ → Prop) : EStateM.Result ε σ α → EStateM.Result ε τ α → Prop where
  | ok (a : α) {s : σ} {t : τ} (related : R s t) : Ends R (.ok a s) (.ok a t)
  | error (e : ε) {s : σ} {t : τ} (related : R s t) : Ends R (.error e s) (.error e t)

theorem Ends.mono {R R' : σ → τ → Prop} {x : EStateM.Result ε σ α} {y : EStateM.Result ε τ α}
    (ends : Ends R x y) (weaker : ∀ s t, R s t → R' s t) : Ends R' x y := by
  cases ends with
  | ok a related => exact .ok a (weaker _ _ related)
  | error e related => exact .error e (weaker _ _ related)

def Coupled (R : σ → τ → Prop) (m : EStateM ε σ α) (n : EStateM ε τ α) : Prop :=
  ∀ s t, R s t → Ends R (m s) (n t)

theorem ranOk {m : EStateM ε σ α} {f : α → EStateM ε σ β} {b : β} {s s' : σ}
    (ok : (m >>= f) s = .ok b s') : ∃ a t, m s = .ok a t ∧ f a t = .ok b s' := by
  simp only [bind, EStateM.bind] at ok
  split at ok
  · rename_i a t first
    exact ⟨a, t, first, ok⟩
  · simp at ok

namespace Coupled

variable {R : σ → τ → Prop}

theorem ofPure (a : α) : Coupled R (pure a : EStateM ε σ α) (pure a) := fun _ _ related => .ok a related

theorem ofThrow (e : ε) : Coupled R (throw e : EStateM ε σ α) (throw e) := fun _ _ related => .error e related

/- The continuations have to be coupled for the values that the first computation can give. -/
theorem bindOf {m : EStateM ε σ α} {n : EStateM ε τ α} {f : α → EStateM ε σ β} {g : α → EStateM ε τ β}
    (holds : α → Prop) (first : Coupled R m n)
    (gives : ∀ s t a s', R s t → m s = .ok a s' → holds a)
    (next : ∀ a, holds a → Coupled R (f a) (g a)) : Coupled R (m >>= f) (n >>= g) := by
  intro s t related
  have ends := first s t related
  have value := gives s t
  simp only [bind, EStateM.bind]
  generalize m s = x at ends value ⊢
  generalize n t = y at ends ⊢
  cases ends with
  | ok a after => exact next a (value a _ related rfl) _ _ after
  | error e after => exact .error e after

theorem bind {m : EStateM ε σ α} {n : EStateM ε τ α} {f : α → EStateM ε σ β} {g : α → EStateM ε τ β}
    (first : Coupled R m n) (next : ∀ a, Coupled R (f a) (g a)) : Coupled R (m >>= f) (n >>= g) :=
  bindOf (fun _ => True) first (fun _ _ _ _ _ _ => trivial) (fun a _ => next a)

theorem adaptExcept {m : EStateM ε σ α} {n : EStateM ε τ α} (f : ε → ε') (inner : Coupled R m n) :
    Coupled R (m.adaptExcept f) (n.adaptExcept f) := by
  intro s t related
  have ends := inner s t related
  simp only [EStateM.adaptExcept]
  generalize m s = x at ends ⊢
  generalize n t = y at ends ⊢
  cases ends with
  | ok a after => exact .ok a after
  | error e after => exact .error (f e) after

end Coupled

namespace Expr

variable {R : σ → τ → Prop}

theorem calledCoupled (name : String) (result : Except CallFault Value) :
    Coupled R (called name result) (called name result) := by
  cases result with
  | ok v => exact .ofPure v
  | error fault => exact .ofThrow _

theorem comparedCoupled (result : Except ValueFault Bool) :
    Coupled R (compared result) (compared result) := by
  cases result with
  | ok b => exact .ofPure _
  | error fault =>
    simp only [compared]
    split
    · exact .ofThrow _
    · exact .ofThrow _

/- Two machines that agree on the paths that an expression reads and on the functions that it calls. -/
structure Agree (R : σ → τ → Prop) (m : Machine σ) (n : Machine τ) (paths names : List String) :
    Prop where
  reads : ∀ path ∈ paths, Coupled R (m.resolve path) (n.resolve path)
  functions : ∀ name ∈ names, m.functions.lookup name = n.functions.lookup name
  calls : ∀ c args, Coupled R (m.call c args) (n.call c args)

namespace Agree

variable {m : Machine σ} {n : Machine τ} {paths names paths' names' : List String}

theorem mono (agree : Agree R m n paths names) (fewer : paths' ⊆ paths) (less : names' ⊆ names) :
    Agree R m n paths' names' :=
  ⟨fun path member => agree.reads path (fewer member),
    fun name member => agree.functions name (less member), agree.calls⟩

theorem left (agree : Agree R m n (paths ++ paths') (names ++ names')) : Agree R m n paths names :=
  agree.mono (List.subset_append_left _ _) (List.subset_append_left _ _)

theorem right (agree : Agree R m n (paths ++ paths') (names ++ names')) :
    Agree R m n paths' names' :=
  agree.mono (List.subset_append_right _ _) (List.subset_append_right _ _)

end Agree

mutual

theorem evalCoupled {m : Machine σ} {n : Machine τ} (e : Expr)
    (agree : Agree R m n e.paths e.functions) : Coupled R (e.eval m) (e.eval n) := by
  cases e with
  | literal v => exact .ofPure v
  | path p => exact (agree.reads p (by simp [paths])).adaptExcept _
  | call name args =>
    have same := agree.functions name (by simp [functions])
    simp only [eval, same]
    cases n.functions.lookup name with
    | none => exact .ofThrow _
    | some f =>
      refine .bind (evalAllCoupled args (agree.mono ?_ ?_)) fun values => ?_
      · simp [paths]
      · simp [functions]
      · exact .bind ((agree.calls f _).adaptExcept _) fun result => calledCoupled name result
  | group e =>
    simp only [eval]
    exact evalCoupled e agree
  | not e =>
    simp only [eval]
    exact .bind (evalCoupled e agree) fun v => .ofPure _
  | and left right =>
    simp only [eval]
    refine .bind (evalCoupled left agree.left) fun v => ?_
    split
    · exact evalCoupled right agree.right
    · exact .ofPure v
  | or left right =>
    simp only [eval]
    refine .bind (evalCoupled left agree.left) fun v => ?_
    split
    · exact .ofPure v
    · exact evalCoupled right agree.right
  | compare relation left right =>
    simp only [eval]
    exact .bind (evalCoupled left agree.left) fun a =>
      .bind (evalCoupled right agree.right) fun b => comparedCoupled _

theorem evalAllCoupled {m : Machine σ} {n : Machine τ} (es : List Expr)
    (agree : Agree R m n (pathsOf es) (functionsOf es)) :
    Coupled R (evalAll m es) (evalAll n es) := by
  cases es with
  | nil => exact .ofPure []
  | cons e es =>
    simp only [evalAll]
    exact .bind (evalCoupled e agree.left) fun v =>
      .bind (evalAllCoupled es agree.right) fun vs => .ofPure (v :: vs)

end

end Expr
end Stencil
