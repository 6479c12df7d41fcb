import Stencil.Command.Run

/-! What a command has to look at: the files that it names, and those that are included, as far as the
files that are known tell. -/
namespace Stencil.Command.Request

def paths (r : Request) : List String :=
  let settings := match r.config with
    | none | some "" => Settings.fileName
    | some path => path
  (if r.isInput then [] else [r.template]) ++ settings :: (r.vars.toList.filter (· != ""))

def inclusions (d : Delimiters) (text : String) : List String :=
  match Token.scan d text with
  | .ok tokens => (tokens.filter (·.kind = .inclusion)).map (fun t => Text.trim t.value)
  | .error _ => []

def places (r : Request) (d : Desk) : List Place :=
  match r.source d, r.settings d with
  | .ok (text, directory), .ok settings =>
    let names := (text :: d.files.texts.map (·.2)).flatMap (inclusions settings.delimiters)
    names.filterMap (fun name => ((includes settings d directory).place? name).toOption.join)
  | _, _ => []

end Stencil.Command.Request
