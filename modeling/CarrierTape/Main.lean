import CarrierTape.Command.Run

/-!
The program. It looks at the files that a run may read, lets `Command.answer` decide
everything, and then writes what was decided.
-/

namespace CarrierTape.Main

def systemPath : Place → String
  | "/" :: rest => "/" ++ "/".intercalate rest
  | place => "/".intercalate place

/-- What is at a path. Whatever cannot be read as a file counts as a directory. -/
def nodeAt (path : String) : IO (Option Node) := do
  try
    return some (.file (← IO.FS.readBinFile path))
  catch
    | .noFileOrDirectory .. => return none
    | _ => return some .directory

def nodesAlong (here : Place) : List String → IO (List (Place × Node))
  | [] => return []
  | part :: rest => do
    let there := FileTree.step here part
    if Place.isBase there then nodesAlong there rest
    else
      match ← nodeAt (systemPath there) with
      | none => return []
      | some node => return (there, node) :: (← nodesAlong there rest)

def writeReport : Command.Report → IO Unit
  | .entry e => IO.eprintln e.text
  | .line s => IO.eprintln s

/-- Writes the output file as it is after a run. -/
def saveOutput (files : FileTree) (path : String) : IO Unit := do
  match files.find path with
  | .ok (.file content) => IO.FS.writeBinFile path content
  | _ => return

def readInput : IO ByteArray := do
  (← IO.getStdin).readBinToEnd

end CarrierTape.Main

open CarrierTape in
def main (arguments : List String) : IO UInt32 := do
  let home := (← IO.getEnv "HOME").filter (!·.isEmpty)
  let request := Command.Request.ofArguments arguments
  let (paths, readsInput, output) := match request with
    | .run a => (a.paths home, a.readsInput, a.output)
    | _ => ([], false, none)
  let nodes ← paths.mapM fun path => Main.nodesAlong [] (FileTree.parts path)
  let input ← if readsInput then Main.readInput else pure ByteArray.empty
  let outcome := Command.answer ⟨⟨nodes.flatten⟩, home, input, .byLevel⟩ request
  IO.print outcome.output
  outcome.report.forM Main.writeReport
  if outcome.exitCode = 0 then output.forM (Main.saveOutput outcome.files)
  return outcome.exitCode.toUInt32
