import Stencil.Command.Needs
import Std.Time.DateTime.Timestamp

/-! The program: reads what a command needs, carries the command out, and prints. -/
namespace Stencil.Program

open Command

def readText? (path : String) : IO (Option String) := do
  try return some (← IO.FS.readFile path) catch _ => return none

def addFile (files : Files) (path : String) : IO Files := do
  return ((← readText? path).map (files.add path)).getD files

partial def addIncludes (r : Request) (d : Desk) (tried : List Place) : IO Desk := do
  let wanted := (r.places d).filter (!tried.contains ·)
  if wanted.isEmpty then return d
  let files ← (wanted.map (fun p => "/" ++ String.intercalate "/" p)).foldlM addFile d.files
  addIncludes r { d with files := files } (wanted ++ tried)

partial def readInput (input : IO.FS.Stream) (done : String) : IO String := do
  let line ← input.getLine
  if line.isEmpty then return done else readInput input (done ++ line)

def hexText (bytes : List UInt8) : String :=
  String.ofList (bytes.flatMap (fun b => Text.hex 2 b.toNat))

def identifier (bytes : List UInt8) : String :=
  let bytes := bytes.mapIdx (fun i b =>
    if i = 6 then b &&& 0x0f ||| 0x40 else if i = 8 then b &&& 0x3f ||| 0x80 else b)
  String.intercalate "-" ([(0, 4), (4, 2), (6, 2), (8, 2), (10, 6)].map
    (fun p => hexText ((bytes.drop p.1).take p.2)))

/- The surroundings of one command. All values are drawn beforehand, so the clock stands still while
the command runs and a limit of time is never passed. -/
def host : IO Host := do
  let seconds := (← Std.Time.Timestamp.now).toSecondsSinceUnixEpoch.val
  let now : Moment := (Moment.ofSeconds? seconds 0).getD ⟨⟨1970, 1, 1⟩, .midnight⟩
  let bytes := (← IO.getRandomBytes 16).toList
  let seed : Nat := bytes.foldl (fun n b => 256 * n + b.toNat) 0
  return {
    call := fun _ _ => .error (.other "no such callable")
    clock := fun _ => .zero
    now := { now with time := { now.time with offset := some 0 } }
    uuid := identifier bytes
    random := fun low high => low + Int.emod seed (high - low + 1) }

def carryOut (r : Request) : IO UInt32 := do
  let here := Place.names (toString (← IO.currentDir))
  let files ← r.paths.foldlM addFile ⟨here, [], []⟩
  let input ← if r.isInput then readInput (← IO.getStdin) "" else pure ""
  let d ← addIncludes r ⟨files, input, ← host⟩ []
  match r.run d with
  | .ok p =>
    match p.toText with
    | .ok text => IO.print text
    | .error fault => IO.eprintln fault.message
    return p.code.toUInt32
  | .error fault =>
    IO.eprint fault.text
    return if fault.unexpected?.isSome then 1 else 2

def usage : String :=
  "usage: ptpl [-h] [-v] \x7brender,report,validate,inspect\x7d ...\n"

end Stencil.Program

open Stencil in
def main (args : List String) : IO UInt32 := do
  match Command.read args with
  | .request r => Program.carryOut r
  | .help => do
    IO.print Program.usage
    return 0
  | .version => do
    IO.print Command.versionText
    return 0
  | .rejected => do
    IO.eprint Program.usage
    return 2
