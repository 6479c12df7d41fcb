/-! Places in a text. -/
namespace Stencil

/- In a text, lines and columns are counted from one and the offset from zero; a tree that was made by
hand may bear any numbers. -/
structure Position where
  line : Int
  column : Int
  offset : Nat
  deriving DecidableEq, Repr, Inhabited

namespace Position

def start : Position := ⟨1, 1, 0⟩

def text (p : Position) : String := toString p.line ++ ":" ++ toString p.column

def advance (p : Position) (c : Char) : Position :=
  if c = '\n' then ⟨p.line + 1, 1, p.offset + 1⟩ else ⟨p.line, p.column + 1, p.offset + 1⟩

def advanceOver (p : Position) (s : List Char) : Position := s.foldl advance p

theorem offset_advanceOver (p : Position) (s : List Char) :
    (p.advanceOver s).offset = p.offset + s.length := by
  induction s generalizing p with
  | nil => rfl
  | cons c s ih =>
    have : (p.advance c).offset = p.offset + 1 := by unfold advance; split <;> rfl
    simp only [advanceOver, List.foldl_cons, List.length_cons] at ih ⊢
    rw [ih, this]
    omega

theorem line_advanceOver (p : Position) (s : List Char) :
    (p.advanceOver s).line = p.line + s.count '\n' := by
  induction s generalizing p with
  | nil => simp [advanceOver]
  | cons c s ih =>
    simp only [advanceOver, List.foldl_cons] at ih ⊢
    rw [ih]
    by_cases h : c = '\n' <;> simp [advance, h] <;> omega

theorem advanceOver_append (p : Position) (s t : List Char) :
    p.advanceOver (s ++ t) = (p.advanceOver s).advanceOver t := by
  simp [advanceOver]

end Position
end Stencil
