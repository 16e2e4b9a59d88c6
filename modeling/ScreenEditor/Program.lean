import ScreenEditor.CommandLine
import ScreenEditor.Config.Encode
import ScreenEditor.Editor.Run
import ScreenEditor.Storage.Directory

/-!
# The program

From the command line to the exit code.  The program reads its configuration, and either prints it
or begins a log file and edits.  A mistake in the arguments has an exit code of its own.
-/

namespace ScreenEditor.Program

/-- What the program finds when it starts: its arguments, the bytes of the configuration file that
is read when no other is named, the folder for temporary files, the files, and the size of the
terminal. -/
structure Surroundings where
  arguments : List String
  configBytes : Option (List UInt8)
  temporary : String
  directory : Directory
  rows : Nat
  cols : Nat

/-- How the program ended: its exit code, what it printed, and the files as it left them. -/
structure Outcome where
  code : Nat
  printed : Option String
  directory : Directory

/-- The exit code when all went well. -/
def success : Nat := 0

/-- The exit code when something failed. -/
def failure : Nat := 1

/-- The exit code for a mistake in the arguments. -/
def badUsage : Nat := 2

/-- The exit code for arguments that are not obeyed. -/
def usageCode : UsageError → Nat
  | .help | .version => success
  | _ => badUsage

/-- The exit code for the way a run of the editor ended. -/
def endingCode : Ending → Nat
  | .quit => success
  | .failed _ => failure

/-- The log file of a command line. -/
def logFile (s : Surroundings) (line : CommandLine) : String :=
  line.logFile.getD (pathIn s.temporary "segedit.log")

/-- The configuration that a command line names, or the usual one. -/
def configOf (s : Surroundings) (line : CommandLine) : Except ConfigError Config :=
  let standard := Config.standard s.temporary
  match line.config with
  | none => .ok (Config.loadOrStandard standard s.configBytes)
  | some name => Config.load standard (s.directory.contents name).toOption

/-- A program that has ended, or that edits. -/
inductive Started where
  | ended (outcome : Outcome)
  | editing (editor : Editor Directory)

/-- Begin the log file and open the files to be edited. -/
def startEditor (s : Surroundings) (line : CommandLine) (config : Config) : Started :=
  match s.directory.openStream (logFile s line) .write with
  | .error _ => .ended ⟨failure, none, s.directory⟩
  | .ok (_, directory) =>
    match Editor.launch config directory s.rows s.cols line.files with
    | .error _ => .ended ⟨failure, none, directory⟩
    | .ok editor => .editing editor

/-- Obey the command line as far as it goes without events. -/
def start (s : Surroundings) : Started :=
  match CommandLine.parse s.arguments with
  | .error error => .ended ⟨usageCode error, none, s.directory⟩
  | .ok line =>
    match configOf s line with
    | .error _ => .ended ⟨failure, none, s.directory⟩
    | .ok config =>
      if line.dumpConfig then .ended ⟨success, some (config.toText ++ "\n"), s.directory⟩
      else startEditor s line config

/-- Run the program on the given events. -/
def run (s : Surroundings) (events : List Event) : Outcome :=
  match start s with
  | .ended outcome => outcome
  | .editing editor =>
    let (transcript, editor) := editor.run events
    ⟨endingCode transcript.ending, none, editor.session.storage⟩

end ScreenEditor.Program
