import ConfidentialPolicy.CommandLine.Run

namespace ConfidentialPolicy.CommandLine

def nodeAt (path : String) : IO (Option Node) := do
  try
    let octets ← IO.FS.readBinFile path
    match String.fromUTF8? octets with
    | some content => pure (some (.text content))
    | none => pure (some .binary)
  catch
    | .inappropriateType .. => pure (some .directory)
    | _ => pure none

def loadPath (files : Files) (path : String) : IO Files := do
  let place := (Path.names path).foldl Files.step (files.start path)
  let mut files := files
  for n in List.range place.length do
    let p := place.take (n + 1)
    if let some node ← nodeAt ("/" ++ String.intercalate "/" p) then
      files := files.put p node
  return files

def loadFiles (r : Request) : IO Files := do
  let here := Path.names (toString (← IO.currentDir))
  let files ← r.paths.foldlM loadPath ⟨[], here⟩
  match Setup.readStore files r.settings.fragmentIndex with
  | .ok (some store) => store.paths.foldlM loadPath files
  | _ => return files

def readEnvironment : IO Environment := do
  let found ← Settings.variableNames.mapM fun name ↦ do
    return (← IO.getEnv name).map (name, ·)
  return KeyMap.ofList (found.filterMap id)

def fail (text : String) : IO Unit := do
  for line in Layout.failure text do
    IO.eprintln line

def answer (a : Attempt Answer) : IO UInt32 := do
  match a with
  | .error e => fail e.message
  | .ok a => IO.print a.output
  return exitCode a

def carryOut (p : Plan) : IO UInt32 := do
  match p.write with
  | none => answer p.answer
  | some (path, content) =>
    try
      IO.FS.writeFile path content
    catch e =>
      fail (toString e)
      return 1
    answer p.answer

def execute (r : Request) : IO UInt32 := do
  match r.plan Tools.standard (← loadFiles r) with
  | .ok p => carryOut p
  | .error e => answer (.error e)

end ConfidentialPolicy.CommandLine

open ConfidentialPolicy.CommandLine in
def main (words : List String) : IO UInt32 := do
  match Request.ofWords? (← readEnvironment) words with
  | some r => execute r
  | none => answer (.error .usage)
