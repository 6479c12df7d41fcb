import Stencil.Text.Ranges

/-! Blank characters: the white space of Unicode together with the four information separators. -/
namespace Stencil.Text

def blankBounds : List Nat := [
  9, 14, 28, 33, 133, 134, 160, 161, 5760, 5761, 8192, 8203, 8232, 8234, 8239, 8240, 8287, 8288,
  12288, 12289]

def isBlank (c : Char) : Bool := within blankBounds c.toNat

def stripFront (s : List Char) : List Char := s.dropWhile isBlank

def stripBack (s : List Char) : List Char := (s.reverse.dropWhile isBlank).reverse

def strip (s : List Char) : List Char := stripBack (stripFront s)

def trim (s : String) : String := String.ofList (strip s.toList)

def allBlank (s : String) : Bool := s.toList.all isBlank

def words (s : List Char) : List (List Char) :=
  (s.splitBy (fun a b => isBlank a == isBlank b)).filter (fun w => !w.any isBlank)

theorem isBlank_of_isWhitespace {c : Char} (h : c.isWhitespace = true) : isBlank c = true := by
  simp only [Char.isWhitespace, Bool.or_eq_true, decide_eq_true_eq] at h
  rcases h with ((h | h) | h) | h <;> subst h <;> decide

end Stencil.Text
