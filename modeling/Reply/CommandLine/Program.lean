import Reply.CommandLine.Arguments
import Reply.CommandLine.Demonstration
import Reply.Settings.File

namespace Reply

/-!
# The program

Settings are read and checked before anything else is done, so a bad file is
reported even if the status code is bad too.
-/

namespace CommandLine

/-- Why the program fails. -/
inductive Fault
  | settings (fault : SettingsFault)
  | demonstration (fault : Demonstration.Fault)
  deriving DecidableEq

/-- The wording of a fault. -/
def Fault.message : Fault → String
  | .settings fault => fault.message
  | .demonstration fault => fault.message

/-- What the program does. -/
inductive Ending
  | shows (text : String)
  | fails (fault : Fault)
  | misused
  deriving DecidableEq

/-- The status the program exits with. -/
def Ending.exitCode : Ending → Nat
  | .shows _ => 0
  | .fails _ => 1
  | .misused => 2

/-- The settings in force, given how files are read. -/
def settings
    (contentOf : String → Except FileFault ByteArray)
    (options : Options) :
    Except SettingsFault Settings :=
  match options.settings with
  | some path => Settings.ofFile (contentOf path)
  | none => .ok .default

/-- Do what options ask for, given how files are read. -/
def perform
    (contentOf : String → Except FileFault ByteArray)
    (options : Options) :
    Ending :=
  match settings contentOf options with
  | .error fault => .fails (.settings fault)
  | .ok _ =>
      match Demonstration.serve options.statusCode options.held with
      | .error fault => .fails (.demonstration fault)
      | .ok message => .shows (Demonstration.display message)

/-- Run the program on arguments, given how files are read. -/
def run
    (contentOf : String → Except FileFault ByteArray)
    (arguments : List String) :
    Ending :=
  match read arguments with
  | .help => .shows helpText
  | .misuse => .misused
  | .run options => perform contentOf options

end CommandLine

end Reply
