import SchemaDiagram.Text.Basic

/-!
# Arguments

The command takes one input, options with a value (`-o FILE`, `-oFILE`, `-o=FILE`, `--output FILE`,
`--output=FILE`) and flags, whose letters can share a dash. What follows `--` is never an option.
Arguments count from left to right: the first that cannot stand decides, and so does the first that
asks for the version or for help.
-/

namespace SchemaDiagram

structure Options where
  input : Option Text := none
  output : Option Text := none
  config : Option Text := none
  schemaOnly : Bool := false
  pretty : Bool := false
  verbosity : Nat := 0
  deriving DecidableEq, Repr

inductive Request where
  | convert (input : Text) (options : Options)
  | version
  | help
  deriving DecidableEq, Repr

namespace Options

def setOnce? (old : Option Text) (v : Text) : Option (Option Text) :=
  if old.isSome || v.isEmpty then none else some (some v)

def setInput? (o : Options) (v : Text) : Option Options :=
  (setOnce? o.input v).map ({ o with input := · })

def setOutput? (o : Options) (v : Text) : Option Options :=
  (setOnce? o.output v).map ({ o with output := · })

def setConfig? (o : Options) (v : Text) : Option Options :=
  (setOnce? o.config v).map ({ o with config := · })

inductive Effect where
  | value (set? : Options → Text → Option Options)
  | flag (set? : Options → Option Options)
  | ask (r : Request)

def countVerbose : Effect := .flag fun o => some { o with verbosity := o.verbosity + 1 }

def ofLetter? : Char → Option Effect
  | 'o' => some (.value setOutput?)
  | 'c' => some (.value setConfig?)
  | 'v' => some countVerbose
  | 'V' => some (.ask .version)
  | 'h' => some (.ask .help)
  | _ => none

def ofName? (name : Text) : Option Effect :=
  match String.ofList name with
  | "output" => some (.value setOutput?)
  | "config" => some (.value setConfig?)
  | "verbose" => some countVerbose
  | "schema-only" =>
    some (.flag fun o => if o.schemaOnly then none else some { o with schemaOnly := true })
  | "pretty" => some (.flag fun o => if o.pretty then none else some { o with pretty := true })
  | "version" => some (.ask .version)
  | "help" => some (.ask .help)
  | _ => none

inductive Step where
  | done (o : Options)
  /-- The next argument is a value. -/
  | awaits (o : Options) (set? : Options → Text → Option Options)
  | answer (r : Request)

/-- The letters behind a single dash; a letter that takes a value takes the rest of them. -/
def letters? (o : Options) : Text → Option Step
  | [] => some (.done o)
  | c :: rest => do
    match ← ofLetter? c with
    | .ask r => return .answer r
    | .flag set? => letters? (← set? o) rest
    | .value set? =>
      match rest with
      | [] => return .awaits o set?
      | '=' :: v => return .done (← set? o v)
      | v => return .done (← set? o v)

/-- What follows a double dash: a name, and a value behind an equals sign. -/
def long? (o : Options) (t : Text) : Option Step := do
  let (name, attached) := t.span (· ≠ '=')
  match ← ofName? name, attached with
  | .ask r, [] => return .answer r
  | .flag set?, [] => return .done (← set? o)
  | .value set?, [] => return .awaits o set?
  | .value set?, _ :: v => return .done (← set? o v)
  | _, _ => none

def argument? (o : Options) (arg : Text) : Option Step :=
  match arg with
  | '-' :: '-' :: name => o.long? name
  | '-' :: c :: rest => o.letters? (c :: rest)
  | arg => (o.setInput? arg).map .done

def isValue (arg : Text) : Bool := arg.head? ≠ some '-' || arg.length = 1

def request? (o : Options) : Option Request := o.input.map (.convert · o)

mutual

/-- The request that further arguments lead to; none for arguments that cannot stand. -/
def read? (o : Options) : List Text → Option Request
  | [] => o.request?
  | arg :: rest =>
    if arg = ['-', '-'] then do (← rest.foldlM setInput? o).request?
    else
      match o.argument? arg with
      | none => none
      | some (.answer r) => some r
      | some (.done o) => read? o rest
      | some (.awaits o set?) => readValue? o set? rest

/-- Takes the next argument for the value of an option. -/
def readValue? (o : Options) (set? : Options → Text → Option Options) :
    List Text → Option Request
  | [] => none
  | arg :: rest =>
    if isValue arg then
      match set? o arg with
      | none => none
      | some o => read? o rest
    else none

end

end Options

def Request.ofArguments? (arguments : List Text) : Option Request := ({} : Options).read? arguments

end SchemaDiagram
