import PositionSync.Decimal.Unsigned

/-!
# Command lines

A command line names a command, with general options before or behind it and options of its own. Where
a general option is given in both places, the one behind the command counts. Arguments are read from
the left, and the first one that does not fit decides how the command line is refused.
-/

namespace PositionSync.Command

inductive OutputFormat where
  | compact
  | pretty
deriving DecidableEq

inductive Task where
  | show
  | tail (file : String) (batchSize : Nat)
  | forget (files : List String)
deriving DecidableEq

structure Invocation where
  config : Option String
  storeDir : Option String
  workerId : Option String
  format : OutputFormat
  verbose : Bool
  task : Task
deriving DecidableEq

inductive Refusal where
  | help
  | nothing
  | version
  | invalid
deriving DecidableEq

inductive ValueOption where
  | config
  | storeDir
  | workerId
  | format
  | batchSize
deriving DecidableEq

inductive OptionName where
  | value (option : ValueOption)
  | verbose
  | help
  | version
deriving DecidableEq

inductive CommandName where
  | show
  | tail
  | forget
deriving DecidableEq

/-- Where an argument stands: before the command, or behind it. -/
inductive Level where
  | general
  | command (name : CommandName)
deriving DecidableEq

def commandName? : String → Option CommandName
  | "show" => some .show
  | "tail" => some .tail
  | "forget" => some .forget
  | _ => none

/-- The option with a long name. The version can be asked for only before the command, and the batch
size belongs to one command. -/
def longOption? (level : Level) : String → Option OptionName
  | "config" => some (.value .config)
  | "store-dir" => some (.value .storeDir)
  | "worker-id" => some (.value .workerId)
  | "format" => some (.value .format)
  | "verbose" => some .verbose
  | "help" => some .help
  | "version" => if level = .general then some .version else none
  | "batch-size" => if level = .command .tail then some (.value .batchSize) else none
  | _ => none

def shortOption? (level : Level) : Char → Option OptionName
  | 'C' => some (.value .config)
  | 's' => some (.value .storeDir)
  | 'w' => some (.value .workerId)
  | 'f' => some (.value .format)
  | 'v' => some .verbose
  | 'h' => some .help
  | 'V' => if level = .general then some .version else none
  | _ => none

structure Given where
  config : Option String := none
  storeDir : Option String := none
  workerId : Option String := none
  format : Option OutputFormat := none
  verbose : Bool := false
  batchSize : Option Nat := none
  files : List String := []
deriving DecidableEq

abbrev Reading (α : Type) := Except Refusal α

/-- A path may not be empty. -/
def pathValue (value : String) : Reading String :=
  if value.isEmpty then .error .invalid else .ok value

/-- Give a field its value, unless it has one already. -/
def setOnce {α : Type} (field : Option α) (value : Reading α) : Reading (Option α) :=
  match field, value with
  | none, .ok value => .ok (some value)
  | _, _ => .error .invalid

def formatValue : String → Reading OutputFormat
  | "json" => .ok .compact
  | "pretty" => .ok .pretty
  | _ => .error .invalid

def sizeValue (value : String) : Reading Nat :=
  match Decimal.parse Decimal.largest64 value with
  | .ok size => .ok size
  | .error _ => .error .invalid

/-- Take the value of an option. No option may be given twice at one level. -/
def Given.set (given : Given) (option : ValueOption) (value : String) : Reading Given := do
  match option with
  | .config => return { given with config := ← setOnce given.config (pathValue value) }
  | .storeDir => return { given with storeDir := ← setOnce given.storeDir (pathValue value) }
  | .workerId => return { given with workerId := ← setOnce given.workerId (.ok value) }
  | .format => return { given with format := ← setOnce given.format (formatValue value) }
  | .batchSize => return { given with batchSize := ← setOnce given.batchSize (sizeValue value) }

/-- Take a file of the command: one at most for following, any number for forgetting. -/
def Given.addFile (given : Given) (level : Level) (file : String) : Reading Given :=
  match level with
  | .command .forget =>
    if file.isEmpty then .error .invalid else .ok { given with files := given.files ++ [file] }
  | .command .tail =>
    if file.isEmpty || !given.files.isEmpty then .error .invalid
    else .ok { given with files := [file] }
  | _ => .error .invalid

/-- An option whose value is the next argument, or has been read but not checked yet. -/
inductive Open where
  | nothing
  | awaiting (option : ValueOption)
  | unchecked (option : ValueOption) (value : String)
deriving DecidableEq

structure State where
  given : Given
  pending : Open
deriving DecidableEq

def State.close (state : State) : Reading Given :=
  match state.pending with
  | .nothing => .ok state.given
  | .awaiting _ => .error .invalid
  | .unchecked option value => state.given.set option value

/-- Take an option that is given without a value of its own, or with one in the same argument. -/
def State.take (state : State) (option : OptionName) (value : Option String) :
    Reading State := do
  match option, value with
  | .value option, some value => return ⟨← (← state.close).set option value, .nothing⟩
  | .value option, none => return ⟨← state.close, .awaiting option⟩
  | _, some _ => throw .invalid
  | .verbose, none =>
    let given ← state.close
    if given.verbose then throw .invalid
    return ⟨{ given with verbose := true }, .nothing⟩
  | .help, none => do
    let _ ← state.close
    throw .help
  | .version, none => do
    let _ ← state.close
    throw .version

/-- Take the short options of one argument. What follows an option with a value is its value. -/
def State.takeShort (level : Level) : State → List Char → Reading State
  | state, [] => .ok state
  | state, char :: rest =>
    match shortOption? level char with
    | none => .error .invalid
    | some (.value option) =>
      match rest with
      | [] => state.take (.value option) none
      | '=' :: value => state.take (.value option) (some (String.ofList value))
      | value => state.take (.value option) (some (String.ofList value))
    | some option => do
      let state ← state.take option none
      state.takeShort level rest

/-- Take a long option, whose value may follow an equals sign. -/
def State.takeLong (level : Level) (state : State) (chars : List Char) : Reading State :=
  let name := chars.takeWhile (· ≠ '=')
  let value := match chars.dropWhile (· ≠ '=') with
    | [] => none
    | _ :: value => some (String.ofList value)
  match longOption? level (String.ofList name) with
  | none => .error .invalid
  | some option => state.take option value

inductive Shape where
  | separator
  | long (chars : List Char)
  | short (chars : List Char)
  | plain
deriving DecidableEq

def shapeOf (argument : String) : Shape :=
  match argument.toList with
  | ['-', '-'] => .separator
  | '-' :: '-' :: chars => .long chars
  | ['-'] => .plain
  | '-' :: chars => .short chars
  | _ => .plain

def takeFiles (level : Level) (given : Given) (files : List String) : Reading Given :=
  files.foldlM (fun given file => given.addFile level file) given

def readCommand (level : Level) : State → List String → Reading Given
  | state, [] => state.close
  | state, argument :: rest =>
    match shapeOf argument, state.pending with
    | .separator, _ => do takeFiles level (← state.close) rest
    | .long chars, _ => do readCommand level (← state.takeLong level chars) rest
    | .short chars, _ => do readCommand level (← state.takeShort level chars) rest
    | .plain, .awaiting option =>
      readCommand level { state with pending := .unchecked option argument } rest
    | .plain, _ => do
      let given ← (← state.close).addFile level argument
      readCommand level ⟨given, .nothing⟩ rest

/-- What a command is to do, once all its arguments have been read. -/
def taskOf (name : CommandName) (given : Given) : Reading Task :=
  match name, given.files with
  | .show, _ => .ok .show
  | .tail, [file] => .ok (.tail file (given.batchSize.getD 100))
  | .forget, file :: files => .ok (.forget (file :: files))
  | _, _ => .error .invalid

/-- The invocation of what was given before and behind the command. -/
def Given.combine (outer inner : Given) (task : Task) : Invocation where
  config := inner.config.or outer.config
  storeDir := inner.storeDir.or outer.storeDir
  workerId := inner.workerId.or outer.workerId
  format := (inner.format.or outer.format).getD .compact
  verbose := inner.verbose || outer.verbose
  task

/-- Read a command and everything behind it. The last option before it is checked only after that. -/
def readFromCommand (state : State) (name : CommandName) (rest : List String) :
    Reading Invocation := do
  let inner ← readCommand (.command name) ⟨{}, .nothing⟩ rest
  let task ← taskOf name inner
  let outer ← state.close
  return outer.combine inner task

def helpOn (topics : List String) : Refusal :=
  match topics with
  | [] => .help
  | [topic] => if topic = "help" || (commandName? topic).isSome then .help else .invalid
  | _ => .invalid

def endWithoutCommand (state : State) : Reading Invocation := do
  let given ← state.close
  throw (if given = {} then .nothing else .invalid)

def readGeneral : State → List String → Reading Invocation
  | state, [] => endWithoutCommand state
  | state, argument :: rest =>
    match shapeOf argument, state.pending with
    | .separator, _ => if rest.isEmpty then endWithoutCommand state else .error .invalid
    | .long chars, _ => do readGeneral (← state.takeLong .general chars) rest
    | .short chars, _ => do readGeneral (← state.takeShort .general chars) rest
    | .plain, .awaiting option =>
      readGeneral { state with pending := .unchecked option argument } rest
    | .plain, _ =>
      if argument = "help" then .error (helpOn rest)
      else match commandName? argument with
      | some name => readFromCommand state name rest
      | none => .error .invalid

/-- Read a command line, without the name of the program. -/
def read (arguments : List String) : Reading Invocation := readGeneral ⟨{}, .nothing⟩ arguments

end PositionSync.Command
