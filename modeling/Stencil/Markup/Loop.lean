import Stencil.Fault
import Stencil.Markup.Node
import Stencil.Text.Literal

/-! Headers of loops: `name in collection`, or a collection alone. -/
namespace Stencil.Loop

open Text

def defaultName : String := "item"

/- What follows `in` and the blank or the end behind it, and whether `in` stands outside quotes and
parentheses. -/
def wordIn? : List (Char × Bool) → Option (Bool × List (Char × Bool))
  | ('i', top) :: ('n', _) :: [] => some (top, [])
  | ('i', top) :: ('n', _) :: (c, _) :: rest => if isBlank c then some (top, rest) else none
  | _ => none

def keyword? (atStart : Bool) (s : List (Char × Bool)) : Option (Bool × List (Char × Bool)) :=
  match if atStart then wordIn? s else none with
  | some found => some found
  | none =>
    match s with
    | (c, _) :: rest => if isBlank c then wordIn? rest else none
    | [] => none

theorem length_wordIn? {s rest : List (Char × Bool)} {top : Bool} (h : wordIn? s = some (top, rest)) :
    rest.length < s.length := by
  unfold wordIn? at h
  split at h
  · simp at h; obtain ⟨rfl, rfl⟩ := h; simp
  · split at h <;> simp at h
    obtain ⟨rfl, rfl⟩ := h; simp; omega
  · simp at h

theorem length_keyword? {atStart : Bool} {s rest : List (Char × Bool)} {top : Bool}
    (h : keyword? atStart s = some (top, rest)) : rest.length < s.length := by
  unfold keyword? at h
  split at h
  · next found hf =>
    obtain rfl := Option.some.inj h
    split at hf
    · exact length_wordIn? hf
    · simp at hf
  · split at h
    · split at h
      · have := length_wordIn? h
        simp; omega
      · simp at h
    · simp at h

/- Cuts at the first `in` outside quotes and parentheses; `before` holds what was read, backwards. The
blank behind an `in` does not serve the next one. -/
def splitFrom (before : List Char) (atStart : Bool) (s : List (Char × Bool)) :
    Option (List Char × List Char) :=
  match _h : keyword? atStart s with
  | some (true, behind) => some (before.reverse, behind.map (·.1))
  | some (false, behind) =>
    splitFrom ((s.take (s.length - behind.length)).reverse.map (·.1) ++ before) false behind
  | none =>
    match s with
    | [] => none
    | (c, _) :: rest => splitFrom (c :: before) false rest
termination_by s.length
decreasing_by
  · exact length_keyword? (by assumption)
  · simp

def split? (s : List Char) : Option (List Char × List Char) := splitFrom [] true (marked s)

def header (text : String) : Except Reason (String × String) :=
  let s := strip text.toList
  let (name, collection, again) := match split? s with
    | none => (defaultName.toList, s, false)
    | some (before, behind) => (strip before, strip behind, (split? (strip behind)).isSome)
  if again || collection.isEmpty || !Node.isLoopName (String.ofList name) then
    .error (.badLoopHeader (String.ofList s))
  else .ok (String.ofList name, String.ofList collection)

end Stencil.Loop
