import CarrierTape.Job.Document

/-!
Finding a job: in a file, or in the standard input if no path is given or the path
is a dash.
-/

namespace CarrierTape.Job

/-- A dash, also with parts behind it that lead nowhere else. -/
def isStandardInput (path : String) : Bool :=
  match path.splitOn "/" with
  | "-" :: rest => rest.all fun part => part == "" || part == "."
  | _ => false

def readText (files : FileTree) (input : ByteArray) (path : Option String) :
    Except JobError String :=
  match path.filter (!isStandardInput ·) with
  | some path => (files.readText path).mapError (.unreadable path)
  | none => (decodeContent input).mapError (.unreadable "-")

def load (files : FileTree) (input : ByteArray) (path : Option String) : Except JobError Job := do
  let text ← readText files input path
  (ofDocument text).mapError .unparsable

end CarrierTape.Job
