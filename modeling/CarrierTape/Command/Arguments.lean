/-!
The command line. Arguments are read in order, and the first one that is wrong, or
that asks for something else than a run, decides. A value stands in the argument of
its option or in the next one; it is never empty, and does not look like an option.
-/

namespace CarrierTape.Command

structure Arguments where
  job : Option String
  output : Option String
  config : Option String
  /-- How often more of the log was asked for. -/
  verbosity : Nat
  quiet : Bool
deriving DecidableEq

def Arguments.none : Arguments :=
  ⟨.none, .none, .none, 0, false⟩

inductive Request where
  | run (arguments : Arguments)
  | version
  | help
  | misuse
deriving DecidableEq

inductive Flag where
  | verbose
  | quiet
  | version
  | help
deriving DecidableEq

/-- The options that have a value. -/
inductive Setting where
  | output
  | config
deriving DecidableEq

inductive Switch where
  | flag (flag : Flag)
  | setting (setting : Setting)
deriving DecidableEq

def Switch.ofLetter? : Char → Option Switch
  | 'v' => some (.flag .verbose)
  | 'q' => some (.flag .quiet)
  | 'V' => some (.flag .version)
  | 'h' => some (.flag .help)
  | 'o' => some (.setting .output)
  | 'c' => some (.setting .config)
  | _ => none

def Switch.ofWord? : String → Option Switch
  | "verbose" => some (.flag .verbose)
  | "quiet" => some (.flag .quiet)
  | "version" => some (.flag .version)
  | "help" => some (.flag .help)
  | "output" => some (.setting .output)
  | "config" => some (.setting .config)
  | _ => none

namespace Arguments

/-- The arguments so far, or what ends the reading of them. -/
abbrev Progress (α : Type) := Except Request α

def fill (old : Option String) (value : String) : Progress (Option String) :=
  if value.isEmpty ∨ old.isSome then .error .misuse else .ok (some value)

def raise (a : Arguments) : Flag → Progress Arguments
  | .verbose => .ok { a with verbosity := a.verbosity + 1 }
  | .quiet => if a.quiet then .error .misuse else .ok { a with quiet := true }
  | .version => .error .version
  | .help => .error .help

def set (a : Arguments) (value : String) : Setting → Progress Arguments
  | .output => (fill a.output value).map fun output => { a with output }
  | .config => (fill a.config value).map fun config => { a with config }

def setJob (a : Arguments) (path : String) : Progress Arguments :=
  (fill a.job path).map fun job => { a with job }

/-- A value behind a letter may have an equals sign in front. -/
def attached : List Char → String
  | '=' :: value => String.ofList value
  | value => String.ofList value

/-- Letters behind one dash: flags, and at last an option with the rest as its value.
An option without a rest waits for the next argument. -/
def readLetters (a : Arguments) : List Char → Progress (Arguments × Option Setting)
  | [] => .ok (a, Option.none)
  | c :: rest =>
    match Switch.ofLetter? c with
    | Option.none => .error .misuse
    | some (.flag f) => do readLetters (← a.raise f) rest
    | some (.setting s) =>
      if rest.isEmpty then .ok (a, some s)
      else (a.set (attached rest) s).map (·, Option.none)

/-- A word behind two dashes, with its value if there is an equals sign. -/
def readWord (a : Arguments) (word : List Char) : Progress (Arguments × Option Setting) :=
  let name := word.takeWhile (· != '=')
  match Switch.ofWord? (String.ofList name), word.dropWhile (· != '=') with
  | some (.flag f), [] => (a.raise f).map (·, Option.none)
  | some (.setting s), [] => .ok (a, some s)
  | some (.setting s), _ :: value => (a.set (String.ofList value) s).map (·, Option.none)
  | _, _ => .error .misuse

/-- One argument: what it sets, and the option that waits for the next one. -/
def readArgument (a : Arguments) (argument : String) : Progress (Arguments × Option Setting) :=
  match argument.toList with
  | '-' :: '-' :: word => a.readWord word
  | '-' :: c :: rest => a.readLetters (c :: rest)
  | _ => (a.setJob argument).map (·, Option.none)

/-- Whether an argument can be the value of the option in front of it. -/
def isValue (argument : String) : Bool :=
  match argument.toList with
  | '-' :: _ :: _ => false
  | _ => true

/-- Arguments none of which is an option. -/
def readPaths (a : Arguments) : List String → Progress Arguments
  | [] => .ok a
  | path :: rest => do readPaths (← a.setJob path) rest

def readAll (a : Arguments) : List String → Progress Arguments
  | [] => .ok a
  | "--" :: rest => a.readPaths rest
  | argument :: rest => do
    match ← a.readArgument argument with
    | (a, Option.none) => readAll a rest
    | (a, some s) =>
      match rest with
      | value :: rest => if isValue value then readAll (← a.set value s) rest else .error .misuse
      | [] => .error .misuse

end Arguments

def Request.ofArguments (arguments : List String) : Request :=
  match Arguments.none.readAll arguments with
  | .ok a => .run a
  | .error request => request

end CarrierTape.Command
