import ModuleGateway.Text.Digits
import ModuleGateway.Text.Split

/-!
Reading the arguments of the command line. Arguments are read from left to right, and the first one that
is wrong, or that asks for help or for the version, decides.
-/

namespace ModuleGateway.CommandLine

/-- What a command line can ask for in place of a command. -/
inductive Question where
  | help
  | version
  deriving DecidableEq, Repr

/-- What an option does. -/
inductive Role where
  /-- It is on when it is given. -/
  | switch
  /-- It takes a value. -/
  | value
  | asks (question : Question)
  deriving DecidableEq, Repr

/-- An option by its long name and, for some, by a letter. -/
structure Flag where
  name : String
  letter : Option Char := none
  role : Role
  deriving DecidableEq, Repr

/-- The options given so far with their values; a switch has an empty one. -/
abbrev Given := List (String × String)

/-- What comes of one argument. -/
inductive Taken where
  | refused
  | asked (question : Question)
  /-- The options after it, and the one that waits for its value in the next argument. -/
  | taken (given : Given) (pending : Option Flag)

/-- The options with one more. No option can be given twice. -/
def give (flag : Flag) (value : String) (given : Given) : Taken :=
  if given.any (·.1 = flag.name) then .refused else .taken (given ++ [(flag.name, value)]) none

/-- An option by its long name, behind the dashes, perhaps with a value. -/
def takeLong (flags : List Flag) (text : List Char) (given : Given) : Taken :=
  let (name, value) : List Char × Option (List Char) :=
    match Text.cut? '=' text with
    | some (name, value) => (name, some value)
    | none => (text, none)
  match flags.find? (·.name = String.ofList name) with
  | none => .refused
  | some flag =>
    match flag.role, value with
    | .value, some value => give flag (String.ofList value) given
    | .value, none => .taken given (some flag)
    | _, some _ => .refused
    | .switch, none => give flag "" given
    | .asks question, none => .asked question

/-- Options by their letters, behind the dash. Behind the letter of one that takes a value stands the
value. -/
def takeLetters (flags : List Flag) : List Char → Given → Taken
  | [], given => .taken given none
  | c :: rest, given =>
    match flags.find? (·.letter = some c) with
    | none => .refused
    | some flag =>
      match flag.role with
      | .asks question => .asked question
      | .switch =>
        match give flag "" given with
        | .taken given _ => takeLetters flags rest given
        | other => other
      | .value =>
        match rest with
        | [] => .taken given (some flag)
        | '=' :: value => give flag (String.ofList value) given
        | value => give flag (String.ofList value) given

/-- What comes of the arguments of one command. -/
inductive Reading where
  | refused
  | asked (question : Question)
  /-- The options up to the first plain argument, with what stands from there on. -/
  | read (given : Given) (rest : List String)

/-- Reads options up to the first plain argument. Two dashes end the options. -/
def readOptions (flags : List Flag) : List String → Option Flag → Given → Reading
  | [], none, given => .read given []
  | [], some _, _ => .refused
  | arg :: rest, some flag, given =>
    if arg.toList.head? = some '-' && arg ≠ "-" then .refused
    else
      match give flag arg given with
      | .taken given pending => readOptions flags rest pending given
      | _ => .refused
  | arg :: rest, none, given =>
    let taken : Option Taken :=
      match arg.toList with
      | ['-'] => none
      | ['-', '-'] => none
      | '-' :: '-' :: text => some (takeLong flags text given)
      | '-' :: letters => some (takeLetters flags letters given)
      | _ => none
    match taken with
    | some (.taken given pending) => readOptions flags rest pending given
    | some (.asked question) => .asked question
    | some .refused => .refused
    | none => if arg = "--" && rest = [] then .read given [] else .read given (arg :: rest)

/-! ### Commands -/

/-- Where the settings come from. -/
structure Origin where
  config : Option String := none
  /-- Stands in for the source root of the settings. -/
  root : Option String := none
  deriving DecidableEq, Repr

/-- What the program is to do. -/
inductive Command where
  | serve (origin : Origin) (host : String) (port : Nat) (staticDirectory : Option String)
  /-- Build the packages of the settings into the store. -/
  | prewarm (origin : Origin)
  /-- Delete the store. -/
  | clean (origin : Origin)
  /-- Show the settings and the trusted packages. -/
  | check (origin : Origin)
  | version
  /-- Show help on a command, or on all. -/
  | help (topic : Option String)
  deriving DecidableEq, Repr

/-- An option that shows more of what happens; nothing that is printed here depends on it. -/
def verboseFlag : Flag :=
  ⟨"verbose", some 'v', .switch⟩

def helpFlag : Flag :=
  ⟨"help", some 'h', .asks .help⟩

/-- The options in front of the command. -/
def rootFlags : List Flag :=
  [verboseFlag, helpFlag, ⟨"version", some 'V', .asks .version⟩]

/-- The options of every command. -/
def commonFlags : List Flag :=
  [⟨"config", some 'c', .value⟩, ⟨"root", none, .value⟩, verboseFlag, helpFlag]

/-- The options of a command; none when there is no such command. -/
def flagsOf? (command : String) : Option (List Flag) :=
  match command with
  | "serve" =>
    some (commonFlags ++
      [⟨"host", none, .value⟩, ⟨"port", some 'p', .value⟩, ⟨"static-dir", none, .value⟩])
  | "prewarm" | "clean" | "check" => some commonFlags
  | _ => none

/-- A port as it is written: a number with an optional sign. -/
def port? (text : String) : Option Nat :=
  let (isNegative, digits) :=
    match text.toList with
    | '-' :: rest => (true, rest)
    | '+' :: rest => (false, rest)
    | rest => (false, rest)
  let n := Text.numberIn 10 digits
  if digits = [] || !digits.all Char.isDigit || (isNegative && n ≠ 0) || 0xffff < n then none
  else some n

/-- The command with its options. -/
def ofGiven? (command : String) (given : Given) : Option Command :=
  let origin : Origin := ⟨given.lookup "config", given.lookup "root"⟩
  match command with
  | "serve" => do
    let port ← port? ((given.lookup "port").getD "3000")
    some (.serve origin ((given.lookup "host").getD "127.0.0.1") port (given.lookup "static-dir"))
  | "prewarm" => some (.prewarm origin)
  | "clean" => some (.clean origin)
  | "check" => some (.check origin)
  | _ => none

/-- The command with what stands behind its name. Nothing but options may. -/
def commandRest? (command : String) (rest : List String) : Option Command := do
  let flags ← flagsOf? command
  match readOptions flags rest none [] with
  | .read given [] => ofGiven? command given
  | .asked .help => some (.help (some command))
  | _ => none

/-- What a list of arguments asks for; none when it cannot be understood. -/
def parse? (args : List String) : Option Command :=
  match readOptions rootFlags args none [] with
  | .refused | .read _ [] => none
  | .asked .help => some (.help none)
  | .asked .version => some .version
  | .read _ ("help" :: topics) =>
    match topics with
    | [] => some (.help none)
    | [topic] =>
      if topic = "help" || (flagsOf? topic).isSome then some (.help (some topic)) else none
    | _ => none
  | .read _ (command :: rest) => commandRest? command rest

end ModuleGateway.CommandLine
