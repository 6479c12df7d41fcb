/-! Text in HTML: five characters are written as entities. -/
namespace Stencil.Text

/- Each character with what is written for it. The ampersand stands first, since every entity holds one. -/
def entities : List (Char × List Char) := [
  ('&', "&amp;".toList), ('<', "&lt;".toList), ('>', "&gt;".toList), ('"', "&quot;".toList),
  ('\'', "&#x27;".toList)]

def replaced (c : Char) (image s : List Char) : List Char :=
  s.flatMap (fun x => if x = c then image else [x])

/- The characters are replaced one after the other, each throughout the text that the others left. -/
def escapeHtml (s : List Char) : List Char := entities.foldl (fun s e => replaced e.1 e.2 s) s

end Stencil.Text
