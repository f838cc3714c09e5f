import CarrierTape.Config.Document
import CarrierTape.FileTree

/-!
Finding the settings: at the path that was given, which must exist, or else in the
home directory, where they may be missing.
-/

namespace CarrierTape

inductive ConfigError where
  | notFound (path : String)
  | unreadable (path : String) (error : FileError)
  | unparsable (path : String) (error : Json.Error)
  | invalid (problem : ConfigProblem)

namespace ConfigError

def message : ConfigError → String
  | .notFound path => "configuration file not found: " ++ path
  | .unreadable path _ => "failed to read configuration file: " ++ path
  | .unparsable path _ => "failed to parse configuration file: " ++ path
  | .invalid problem => "configuration validation failed: " ++ problem.message

end ConfigError

namespace Config

def defaultPath (home : String) : String :=
  (if home.endsWith "/" then home else home ++ "/") ++ ".tape-layout/config.json"

def ofFile (files : FileTree) (path : String) : Except ConfigError Config := do
  let text ← (files.readText path).mapError (.unreadable path)
  let c ← (ofDocument text).mapError (.unparsable path)
  match c.problem? with
  | some problem => throw (.invalid problem)
  | none => return c

def load (files : FileTree) (home : Option String) (path : Option String) :
    Except ConfigError Config :=
  match path with
  | some path => if files.exists? path then ofFile files path else .error (.notFound path)
  | none =>
    match (home.map defaultPath).filter files.exists? with
    | some path => ofFile files path
    | none => .ok standard

end Config

end CarrierTape
