import SchemaDiagram.CommandLine.Host
import SchemaDiagram.CommandLine.Options
import SchemaDiagram.FontMetrics
import SchemaDiagram.Json.Encoding
import SchemaDiagram.Layout.Settings

/-!
# The command

The command reads a script and writes its schema or its diagram as JSON. The input is read first,
then the settings; nothing is written unless all went well.
-/

namespace SchemaDiagram

inductive Failure where
  | noTables
  | file (e : FileError)
  | unreadableSettings (path : Text) (e : FileError)
  | malformedSettings (path : Text)
  deriving DecidableEq, Repr

def Failure.message : Failure → Text
  | noTables => Text.ofString "No tables found in the SQL input"
  | file e => Text.ofString "IO error: " ++ e.message
  | unreadableSettings path e =>
    Text.ofString "Layout config error: Failed to read " ++ path ++ ':' :: ' ' :: e.message
  | malformedSettings path => Text.ofString "Layout config error: Failed to parse " ++ path

structure Outcome where
  exit : Nat
  stdout : Text := []
  stderr : Text := []
  deriving DecidableEq, Repr

def versionLine : Text := Text.ofString "sqlerd 0.1.0\n"

def usage : Text := Text.ofString
  "Usage: sqlerd [-o FILE] [-c FILE] [--schema-only] [--pretty] [-v] INPUT\n"

def document (schemaOnly : Bool) (config : Config Float) (s : Schema) : Json :=
  if schemaOnly then .ofSchema s
  else .ofDiagram (.ofSchema config ({} : FontMetrics).measure s)

def summary (s : Schema) : Text :=
  Text.ofString s!"{s.tables.length} tables, {s.relationships.length} relationships\n"

namespace Host

variable {m : Type → Type} [Monad m] (h : Host m)

def settings (path : Option Text) : ExceptT Failure m (Config Float) := do
  match path with
  | none => return .standard
  | some path =>
    let t ← (h.readTextFile path).adapt (Failure.unreadableSettings path)
    match Config.ofToml? t with
    | none => throw (.malformedSettings path)
    | some config => return config

def convert (input : Text) (o : Options) : ExceptT Failure m Outcome := do
  let script ← (h.readText input).adapt Failure.file
  let config ← h.settings o.config
  match Sql.schema? script with
  | none => throw .noTables
  | some s =>
    let json := (document o.schemaOnly config s).toText (if o.pretty then .indented else .compact)
    let stderr := if o.verbosity = 0 then [] else summary s
    match o.output with
    | none => return { exit := 0, stdout := json ++ ['\n'], stderr }
    | some path =>
      match ← h.store path json with
      | .ok () => return { exit := 0, stderr }
      | .error e => throw (.file e)

def run (arguments : List Text) : m Outcome := do
  match Request.ofArguments? arguments with
  | none => return { exit := 2, stderr := usage }
  | some .help => return { exit := 0, stdout := usage }
  | some .version => return { exit := 0, stdout := versionLine }
  | some (.convert input o) =>
    match ← (h.convert input o).run with
    | .ok outcome => return outcome
    | .error e => return { exit := 1, stderr := Text.ofString "Error: " ++ e.message ++ ['\n'] }

end Host

end SchemaDiagram
