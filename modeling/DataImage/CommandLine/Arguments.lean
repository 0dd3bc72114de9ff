/-!
# Arguments

How the command is called: with the file of the description, the file to write, and perhaps the
file of the settings and two flags. Options and the description come in any order; what follows
`--` is no option. An option's value follows it as the next argument, or in the same argument after
`=`, for the short option also without it.

Arguments are read from left to right. The first that asks for help or for the version decides,
unless one before it is wrong.

* `Arguments.ofList` reads the arguments.
-/

namespace DataImage.CommandLine

/-- What the command is called with. -/
structure Arguments where
  /-- The file of the description. -/
  description : String
  /-- The file to write. -/
  output : String
  /-- Whether to write text in place of an object. -/
  asText : Bool
  /-- The file of the settings. -/
  settings : Option String
  /-- Whether to leave out verification and the entry. -/
  noValidate : Bool
deriving DecidableEq, Repr, Inhabited

/-- Why there is nothing to run. -/
inductive Stop where
  /-- The help is asked for. -/
  | help
  /-- The version is asked for. -/
  | version
  /-- The arguments are wrong. -/
  | usage
deriving DecidableEq, Repr, Inhabited

/-- The arguments as far as they have been read. -/
structure Seen where
  description : Option String := none
  output : Option String := none
  asText : Bool := false
  settings : Option String := none
  noValidate : Bool := false
deriving DecidableEq, Repr, Inhabited

/-- The options that take a file. -/
inductive FileOption where
  | output
  | settings
deriving DecidableEq, Repr, Inhabited

/-- How an argument starts. -/
inductive Shape where
  /-- The mark behind which there are no options. -/
  | endOfOptions
  /-- A name behind two dashes, with a value if there is a `=`. -/
  | long (name : String) (value : Option String)
  /-- Letters behind one dash. -/
  | short (letters : List Char)
  /-- Anything else. A single dash is a file name. -/
  | plain
deriving DecidableEq, Repr, Inhabited

/-- The text before the first `=`, and the text behind it. -/
def splitValue (cs : List Char) : String × Option String :=
  let value := match cs.dropWhile (· ≠ '=') with
    | [] => none
    | _ :: value => some (String.ofList value)
  (String.ofList (cs.takeWhile (· ≠ '=')), value)

/-- The shape of an argument. -/
def Shape.of (argument : String) : Shape :=
  match argument.toList with
  | ['-', '-'] => .endOfOptions
  | '-' :: '-' :: rest =>
    let (name, value) := splitValue rest
    .long name value
  | '-' :: letter :: rest => .short (letter :: rest)
  | _ => .plain

namespace Seen

/-- Note a file name, of which there is at most one in each place. None is empty. -/
def fileName (earlier : Option String) (name : String) : Except Stop (Option String) :=
  if earlier.isSome || name.isEmpty then .error .usage else .ok (some name)

/-- Note a file of the description. -/
def withDescription (s : Seen) (name : String) : Except Stop Seen := do
  return { s with description := ← fileName s.description name }

/-- Note the file of an option. -/
def withFile (s : Seen) (option : FileOption) (name : String) : Except Stop Seen := do
  match option with
  | .output => return { s with output := ← fileName s.output name }
  | .settings => return { s with settings := ← fileName s.settings name }

/-- Note a flag, which may be given once. -/
def withFlag (s : Seen) (name : String) : Except Stop Seen :=
  match name with
  | "help" => .error .help
  | "version" => .error .version
  | "text" => if s.asText then .error .usage else .ok { s with asText := true }
  | "no-validate" => if s.noValidate then .error .usage else .ok { s with noValidate := true }
  | _ => .error .usage

/-- The arguments, if nothing is missing. -/
def complete (s : Seen) : Except Stop Arguments :=
  match s.description, s.output with
  | some description, some output =>
    .ok { description, output, asText := s.asText, settings := s.settings,
          noValidate := s.noValidate }
  | _, _ => .error .usage

end Seen

/-- The option of a long name that takes a file. -/
def FileOption.ofName? : String → Option FileOption
  | "output" => some .output
  | "config" => some .settings
  | _ => none

/-- What letters behind a dash ask for: the output option with the value in the same argument, if it
is there. -/
def outputLetters : List Char → Except Stop (Option String)
  | ['o'] => .ok none
  | 'o' :: '=' :: value => .ok (some (String.ofList value))
  | 'o' :: value => .ok (some (String.ofList value))
  | 'h' :: _ => .error .help
  | 'V' :: _ => .error .version
  | _ => .error .usage

/-- Read arguments none of which is an option. -/
def readPlain (s : Seen) (arguments : List String) : Except Stop Seen :=
  arguments.foldlM Seen.withDescription s

/-- Read arguments. An option that waits for its file takes the next argument, which then must not
look like an option. -/
def readFrom (s : Seen) : (waiting : Option FileOption) → List String → Except Stop Seen
  | none, [] => .ok s
  | some _, [] => .error .usage
  | waiting, argument :: rest =>
    match Shape.of argument, waiting with
    | .plain, some option => do readFrom (← s.withFile option argument) none rest
    | .plain, none => do readFrom (← s.withDescription argument) none rest
    | _, some _ => .error .usage
    | .endOfOptions, none => readPlain s rest
    | .long name value, none =>
      match FileOption.ofName? name, value with
      | some option, some value => do readFrom (← s.withFile option value) none rest
      | some option, none => readFrom s (some option) rest
      | none, some _ => .error .usage
      | none, none => do readFrom (← s.withFlag name) none rest
    | .short letters, none => do
      match ← outputLetters letters with
      | some value => readFrom (← s.withFile .output value) none rest
      | none => readFrom s (some .output) rest

/-- Read the arguments of a call. The description and the file to write must be among them. -/
def Arguments.ofList (arguments : List String) : Except Stop Arguments := do
  (← readFrom {} none arguments).complete

end DataImage.CommandLine
