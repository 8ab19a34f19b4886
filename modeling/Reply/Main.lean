import Reply.CommandLine.Program

namespace Reply

/-!
# The command line

The file named by the arguments is read beforehand; all else is
`CommandLine.run`.
-/

namespace CommandLine

/-- Read a file whole. -/
def contentOfFile (path : String) : IO (Except FileFault ByteArray) := do
  try
    let content ← IO.FS.readBinFile path
    pure (.ok content)
  catch fault =>
    match fault with
    | .noFileOrDirectory .. => pure (.error .notFound)
    | .inappropriateType .. => pure (.error .isDirectory)
    | _ => pure (.error .unreadable)

/-- The path of the settings file, if the arguments name one. -/
def settingsPath? (arguments : List String) : Option String :=
  match read arguments with
  | .run options => options.settings
  | _ => none

end CommandLine

end Reply

/-- Run the program on its arguments. -/
def main (arguments : List String) : IO UInt32 := do
  let content ←
    match Reply.CommandLine.settingsPath? arguments with
    | some path => Reply.CommandLine.contentOfFile path
    | none => pure (.error .notFound)
  let ending := Reply.CommandLine.run (fun _ => content) arguments
  match ending with
  | .shows text => IO.print text
  | .fails fault => IO.eprintln ("Error: " ++ fault.message)
  | .misused => IO.eprintln "error: for the options, try '--help'"
  pure (UInt32.ofNat ending.exitCode)
