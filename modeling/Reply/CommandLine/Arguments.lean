namespace Reply

/-!
# Command-line arguments

Arguments are read from left to right.  A long option takes its value after an
equals sign or as the next argument; a short one may also have it attached.  A
dash begins an option, so only an attached value may begin with one, except
that a dash alone is a value.  Every option is given at most once, and asking
for help ends the reading.
-/

namespace CommandLine

/-- What the command line settles. -/
structure Options where
  settings : Option String
  held : Option String
  code : Option Nat
  deriving DecidableEq

namespace Options

/-- Nothing is given. -/
def empty : Options :=
  ⟨none, none, none⟩

/-- The code the reply is made with unless another is given. -/
def defaultCode : Nat :=
  200

/-- The code the reply is made with. -/
def statusCode (options : Options) : Nat :=
  options.code.getD defaultCode

end Options

/-- What the arguments amount to. -/
inductive Invocation
  | run (options : Options)
  | help
  | misuse
  deriving DecidableEq

/-- An option that takes a value. -/
inductive Parameter
  | settings
  | held
  | code
  deriving DecidableEq

/-- What an option's name asks for. -/
inductive Request
  | help
  | value (parameter : Parameter)
  deriving DecidableEq

/-- The options by their long names. -/
def ofLong? (name : List Char) : Option Request :=
  if name = "config".toList then some (.value .settings)
  else if name = "if-none-match".toList then some (.value .held)
  else if name = "status".toList then some (.value .code)
  else if name = "help".toList then some .help
  else none

/-- The options by their short names. -/
def ofShort? (name : Char) : Option Request :=
  if name = 'c' then some (.value .settings)
  else if name = 's' then some (.value .code)
  else if name = 'h' then some .help
  else none

/-- The value of decimal digits, at least one. -/
def natural? (digits : List Char) : Option Nat :=
  if digits.isEmpty || !digits.all Char.isDigit then
    none
  else
    some
      (digits.foldl (fun value digit => 10 * value + (digit.toNat - 48)) 0)

/-- A status code: a whole number with an optional sign, at most 65535. -/
def code? (text : List Char) : Option Nat :=
  let number :=
    match text with
    | '+' :: digits => natural? digits
    | '-' :: digits => (natural? digits).filter fun value => value = 0
    | digits => natural? digits
  number.filter fun value => value ≤ 65535

/-- Give a parameter its value, once and if it is acceptable. -/
def Options.assign?
    (options : Options)
    (value : List Char) :
    Parameter → Option Options
  | .settings =>
      if options.settings.isSome || value.isEmpty then
        none
      else
        some { options with settings := some (String.ofList value) }
  | .held =>
      if options.held.isSome then
        none
      else
        some { options with held := some (String.ofList value) }
  | .code =>
      if options.code.isSome then
        none
      else
        (code? value).map fun code => { options with code := some code }

/-- How an argument reads on its own. -/
inductive Argument
  | plain
  | terminator
  | long (name : List Char) (attached : Option (List Char))
  | short (name : Char) (rest : List Char)
  deriving DecidableEq

/-- Classify an argument. -/
def Argument.ofText : List Char → Argument
  | ['-', '-'] => .terminator
  | '-' :: '-' :: text =>
      .long
        (text.takeWhile (· ≠ '='))
        ((text.dropWhile (· ≠ '=')).tail?)
  | '-' :: name :: rest => .short name rest
  | _ => .plain

/-- A value attached to a short option, perhaps after an equals sign. -/
def attachedValue : List Char → List Char
  | '=' :: value => value
  | value => value

/-- Read arguments from left to right. -/
def readFrom (options : Options) : List (List Char) → Invocation
  | [] => .run options
  | argument :: rest =>
      let given (parameter : Parameter) (value : List Char) : Invocation :=
        match options.assign? value parameter with
        | some options => readFrom options rest
        | none => .misuse
      let awaited (parameter : Parameter) : Invocation :=
        match rest with
        | [] => .misuse
        | value :: later =>
            if Argument.ofText value = .plain then
              match options.assign? value parameter with
              | some options => readFrom options later
              | none => .misuse
            else
              .misuse
      match Argument.ofText argument with
      | .plain => .misuse
      | .terminator => if rest.isEmpty then .run options else .misuse
      | .long name attached =>
          match ofLong? name, attached with
          | some .help, none => .help
          | some (.value parameter), some value => given parameter value
          | some (.value parameter), none => awaited parameter
          | _, _ => .misuse
      | .short name attached =>
          match ofShort? name with
          | some .help => .help
          | some (.value parameter) =>
              if attached.isEmpty then
                awaited parameter
              else
                given parameter (attachedValue attached)
          | none => .misuse

/-- Read the arguments of an invocation. -/
def read (arguments : List String) : Invocation :=
  readFrom .empty (arguments.map String.toList)

/-- The text that explains the options. -/
def helpText : String :=
  "Build, relocate and finalize a JSON response\n" ++
  "\n" ++
  "Usage: response-lifecycle [OPTIONS]\n" ++
  "\n" ++
  "Options:\n" ++
  "  -c, --config <CONFIG>                Path to a TOML config file\n" ++
  "      --if-none-match <IF_NONE_MATCH>  ETag the client already holds\n" ++
  "  -s, --status <STATUS>                " ++
    "Status code the producer sets [default: 200]\n" ++
  "  -h, --help                           Print help\n"

end CommandLine

end Reply
