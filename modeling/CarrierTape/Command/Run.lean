import CarrierTape.Command.Arguments
import CarrierTape.Config.Load
import CarrierTape.Job.Load

/-!
A run of the program: from the command line and the files to an exit code, outputs,
and the files afterwards. Everything that can be wrong with the settings and the job
is found before the output is touched.
-/

namespace CarrierTape.Command

/-- What a run can see besides its arguments. -/
structure Surroundings where
  files : FileTree
  home : Option String
  input : ByteArray
  logFilter : LogFilter

/-- What is written to the standard error. -/
inductive Report where
  | entry (entry : LogEntry)
  | line (text : String)
deriving DecidableEq

structure Outcome where
  exitCode : UInt8
  output : String
  report : List Report
  files : FileTree
deriving DecidableEq

def programName : String :=
  "tape-layout"

def version : String :=
  "0.1.0"

def usage : String :=
  "Usage: " ++ programName ++ " [-o OUTPUT] [-c CONFIG_FILE] [-v]... [-q] [JOB_FILE]"

def Arguments.logLevel (a : Arguments) (c : Config) : LogLevel :=
  if a.quiet then .error
  else match a.verbosity with
    | 0 => c.logLevel
    | 1 => .info
    | 2 => .debug
    | _ => .trace

/-! ### The log -/

def logNumber (x : Binary64) : String :=
  String.ofList (Decimal.Style.log.render x)

def startEntry (a : Arguments) : LogEntry :=
  let job := match a.job with
    | none => "None"
    | some path => "Some(" ++ Text.quote path ++ ")"
  ⟨.info, "Starting tape-layout version=" ++ Text.quote version ++ " job=" ++ job⟩

def placedEntry (index : Nat) (t : PlacedTape) : LogEntry :=
  ⟨.debug, "Resolved tape index=" ++ index.repr ++ " name=" ++ t.name ++
    " origin_x=" ++ logNumber t.spec.originX⟩

def drawnEntry (t : PlacedTape) (records : List Record) : LogEntry :=
  ⟨.debug, "Generated tape layout origin_x=" ++ logNumber t.spec.originX ++
    " part_count=" ++ t.spec.partCount.repr ++ " records=" ++ records.length.repr⟩

def layoutEntry (tapes : List (List Record)) : LogEntry :=
  ⟨.info, "Laid out job tapes=" ++ tapes.length.repr ++
    " records=" ++ tapes.flatten.length.repr⟩

def statementEntry (f : NumberFormat) (s : Statement) : LogEntry :=
  ⟨.trace, "Statement line=" ++ String.ofList (s.render f)⟩

def tapeEntries (f : NumberFormat) (records : List Record) : List LogEntry :=
  let statements := Script.plan records
  ⟨.debug, "Writing tape records=" ++ records.length.repr ++
    " statements=" ++ statements.length.repr⟩ :: statements.map (statementEntry f)

def scriptEntries (f : NumberFormat) (tapes : List (List Record)) : List LogEntry :=
  statementEntry f .grid :: tapes.flatMap (tapeEntries f) ++
    [⟨.debug, "Wrote document tapes=" ++ tapes.length.repr ++
      " statements=" ++ (Script.document tapes).length.repr⟩]

/-- The log of placing and drawing a job, up to the tape that is wrong. -/
def layoutEntries (job : Job) (layout : Except JobError (List (List Record))) : List LogEntry :=
  let placed := job.place.1
  let placedEntries := placed.mapIdx placedEntry
  match layout with
  | .error _ => placedEntries
  | .ok tapes => placedEntries ++ List.zipWith drawnEntry placed tapes ++ [layoutEntry tapes]

def Surroundings.logged (s : Surroundings) (level : LogLevel) (entries : List LogEntry) :
    List Report :=
  (entries.filter (s.logFilter level)).map .entry

/-! ### Running -/

def Arguments.readsInput (a : Arguments) : Bool :=
  a.job.all Job.isStandardInput

/-- The paths that a run with these arguments looks at. -/
def Arguments.paths (a : Arguments) (home : Option String) : List String :=
  (a.config <|> home.map Config.defaultPath).toList ++
    (a.job.filter (!Job.isStandardInput ·)).toList ++ a.output.toList

/-- A run that ends without a script and without touching a file. -/
def failure (s : Surroundings) (report : List Report) : Outcome :=
  ⟨1, "", report, s.files⟩

/-- The end of a report on something that went wrong. -/
def errorReport (s : Surroundings) (level : LogLevel) (what message : String) : List Report :=
  s.logged level [⟨.error, what ++ " error=" ++ message⟩] ++ [.line ("Error: " ++ message)]

def configReport (s : Surroundings) (a : Arguments) (e : ConfigError) : List Report :=
  .line ("Configuration error: " ++ e.message) ::
    match a.config, s.home with
    | none, some home =>
      [.line "", .line ("Default config location: " ++ Config.defaultPath home)]
    | _, _ => []

def deliver (s : Surroundings) (a : Arguments) (f : NumberFormat) (level : LogLevel)
    (report : List Report) (tapes : List (List Record)) : Outcome :=
  let script := Script.render f tapes
  match a.output with
  | none => ⟨0, script, report ++ s.logged level (scriptEntries f tapes), s.files⟩
  | some path =>
    match s.files.write path script.toUTF8 with
    | .error e =>
      failure s (report ++ errorReport s level "Failed to write script"
        ("failed to write drawing script: " ++ e.message))
    | .ok files =>
      ⟨0, "", report ++ s.logged level
        (scriptEntries f tapes ++ [⟨.info, "Script written path=" ++ path⟩]), files⟩

def runJob (s : Surroundings) (a : Arguments) (c : Config) : Outcome :=
  let level := a.logLevel c
  let started := s.logged level [startEntry a]
  let fail (report : List Report) (e : JobError) : Outcome :=
    failure s (report ++ errorReport s level "Failed to lay out job" e.message)
  match Job.load s.files s.input a.job with
  | .error e => fail started e
  | .ok job =>
    let layout := job.layout c.layers
    let report := started ++ s.logged level (layoutEntries job layout)
    match layout with
    | .error e => fail report e
    | .ok tapes => deliver s a c.numberFormat level report tapes

def runWith (s : Surroundings) (a : Arguments) : Outcome :=
  match Config.load s.files s.home a.config with
  | .error e => failure s (configReport s a e)
  | .ok c => runJob s a c

def answer (s : Surroundings) : Request → Outcome
  | .run a => runWith s a
  | .version => ⟨0, programName ++ " " ++ version ++ "\n", [], s.files⟩
  | .help => ⟨0, usage ++ "\n", [], s.files⟩
  | .misuse => ⟨2, "", [.line usage], s.files⟩

def run (s : Surroundings) (arguments : List String) : Outcome :=
  answer s (Request.ofArguments arguments)

end CarrierTape.Command
