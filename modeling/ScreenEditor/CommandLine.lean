/-!
# Command lines

The arguments of the program: files to open, and the options `--config`, `--log-file` and
`--dump-config`, of which each may be given once.  Arguments after `--` are files.

An option that takes a value has it after an equals sign or as the next argument; an argument that
looks like an option is not taken as a value.  Values are examined when the next option or file is
met, or at the end, so a mistake in an option's name may be noticed before one in an earlier value.
-/

namespace ScreenEditor

/-- What the user asked for. -/
structure CommandLine where
  files : List String
  config : Option String
  logFile : Option String
  dumpConfig : Bool
  deriving DecidableEq, Repr

/-- Why arguments are not obeyed.  The first two ask for a text instead. -/
inductive UsageError where
  | help
  | version
  | missingValue
  | repeated
  | unexpectedValue
  | unknownOption
  deriving DecidableEq, Repr

namespace CommandLine

/-- The options that take a value. -/
inductive ValueOption where
  | config
  | logFile
  deriving DecidableEq, Repr

/-- What an option's name stands for. -/
inductive LongOption where
  | value (o : ValueOption)
  | dumpConfig
  | help
  | version
  deriving DecidableEq, Repr

/-- The option with a name. -/
def longOption? (name : String) : Option LongOption :=
  match name with
  | "config" => some (.value .config)
  | "log-file" => some (.value .logFile)
  | "dump-config" => some .dumpConfig
  | "help" => some .help
  | "version" => some .version
  | _ => none

/-- Arguments met that are not examined yet: an option with the values it has, or files. -/
inductive Pending where
  | none
  | option (o : ValueOption) (value : Option String)
  | files (names : List String)
  deriving DecidableEq, Repr

/-- The arguments read so far, and whether only files follow. -/
structure Reader where
  line : CommandLine
  pending : Pending
  onlyFiles : Bool

namespace Reader

/-- Set an option that is not set yet. -/
def setOption (line : CommandLine) (o : ValueOption) (value : String) :
    Except UsageError CommandLine :=
  match o with
  | .config =>
    if line.config.isSome then .error .repeated
    else if value = "" then .error .missingValue
    else .ok { line with config := some value }
  | .logFile =>
    if line.logFile.isSome then .error .repeated
    else if value = "" then .error .missingValue
    else .ok { line with logFile := some value }

/-- Examine what is pending. -/
def settle (r : Reader) : Except UsageError Reader :=
  match r.pending with
  | .none => .ok r
  | .option _ none => .error .missingValue
  | .option o (some value) =>
    (setOption r.line o value).map fun line => { r with line := line, pending := .none }
  | .files names =>
    if names.contains "" then .error .missingValue
    else .ok { r with line := { r.line with files := r.line.files ++ names }, pending := .none }

/-- Take an argument as a file. -/
def takeFile (r : Reader) (name : String) : Except UsageError Reader :=
  match r.pending with
  | .files names => .ok { r with pending := .files (names ++ [name]) }
  | _ => r.settle.map fun r => { r with pending := .files [name] }

/-- Take an option with its value, if it has one attached. -/
def takeLong (r : Reader) (name : String) (value : Option String) : Except UsageError Reader :=
  match longOption? name, value with
  | none, _ => .error .unknownOption
  | some (.value o), none => r.settle.map fun r => { r with pending := .option o none }
  | some (.value o), some v => do
    let r ← r.settle
    let line ← setOption r.line o v
    return { r with line := line }
  | some _, some _ => .error .unexpectedValue
  | some .help, none => do let _ ← r.settle; throw .help
  | some .version, none => do let _ ← r.settle; throw .version
  | some .dumpConfig, none => do
    let r ← r.settle
    if r.line.dumpConfig then throw .repeated
    return { r with line := { r.line with dumpConfig := true } }

/-- Take an option of one letter; both of them end the reading. -/
def takeShort (r : Reader) (letter : Char) : Except UsageError Reader :=
  if letter = 'h' then do let _ ← r.settle; throw .help
  else if letter = 'V' then do let _ ← r.settle; throw .version
  else .error .unknownOption

/-- The name of an option, and the value attached to it with an equals sign. -/
def splitAttached (arg : List Char) : String × Option String :=
  let name := arg.takeWhile (· != '=')
  let rest := arg.drop name.length
  (String.ofList name, if rest = [] then none else some (String.ofList (rest.drop 1)))

/-- Take one argument. -/
def take (r : Reader) (arg : String) : Except UsageError Reader :=
  if r.onlyFiles then r.takeFile arg
  else
    match arg.toList with
    | ['-', '-'] => .ok { r with onlyFiles := true }
    | '-' :: '-' :: rest =>
      let (name, value) := splitAttached rest
      r.takeLong name value
    | '-' :: letter :: _ => r.takeShort letter
    | _ =>
      match r.pending with
      | .option o none => .ok { r with pending := .option o (some arg) }
      | _ => r.takeFile arg

end Reader

/-- What the arguments, the program's own name apart, ask for. -/
def parse (args : List String) : Except UsageError CommandLine := do
  let r ← args.foldlM Reader.take ⟨⟨[], none, none, false⟩, .none, false⟩
  let r ← r.settle
  return r.line

end CommandLine
end ScreenEditor
