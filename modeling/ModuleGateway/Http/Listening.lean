import ModuleGateway.FileSystem.Access
import ModuleGateway.Text.Digits

/-!
What is checked before a server listens: the directory of static files has to exist, and host and port
have to be a socket address. A host is an address by number, not a name.
-/

namespace ModuleGateway.Http

/-! ### Socket addresses

A reader gives the text behind what it has read. -/

/-- A number in some base up to a limit. It may be bound to a number of digits, and zeros in front may
be refused. -/
def number? (base most : Nat) (zeros : Bool) (limit : Nat) (text : List Char) :
    Option (List Char) :=
  let digits := text.takeWhile fun c => (Text.hexValue? c).any (· < base)
  if digits = [] || most < digits.length then none
  else if !zeros && digits.head? = some '0' && 1 < digits.length then none
  else if limit < Text.numberIn base digits then none
  else some (text.drop digits.length)

/-- One character. -/
def char? (c : Char) : List Char → Option (List Char)
  | d :: rest => if c = d then some rest else none
  | [] => none

/-- A number of an address with four parts. -/
def octet? : List Char → Option (List Char) :=
  number? 10 3 false 255

/-- An address with four parts. -/
def fourParts? (text : List Char) : Option (List Char) := do
  let rest ← octet? text
  let rest ← octet? (← char? '.' rest)
  let rest ← octet? (← char? '.' rest)
  octet? (← char? '.' rest)

/-- Up to some groups of an address with eight parts: how many there are, whether the last two are
written as an address with four parts, and the text behind them. -/
def groups : Nat → Bool → List Char → Nat × Bool × List Char
  | 0, _, text => (0, false, text)
  | room + 1, isFirst, text =>
    let start := if isFirst then some text else char? ':' text
    match if room = 0 then none else start.bind fourParts? with
    | some rest => (2, true, rest)
    | none =>
      match start.bind (number? 16 4 true 0xffff) with
      | none => (0, false, text)
      | some rest =>
        let (count, embedded, after) := groups room false rest
        (count + 1, embedded, after)

/-- An address with eight parts. Two colons stand for at least one part. -/
def eightParts? (text : List Char) : Option (List Char) := do
  let (count, embedded, rest) := groups 8 true text
  if count = 8 then some rest
  else if embedded then none
  else
    let rest ← char? ':' (← char? ':' rest)
    some (groups (7 - count) true rest).2.2

/-- The port behind an address. -/
def port? (text : List Char) : Option (List Char) := do
  let rest ← char? ':' text
  number? 10 rest.length true 0xffff rest

/-- The scope that may stand behind an address with eight parts. -/
def scope (text : List Char) : List Char :=
  ((char? '%' text).bind fun rest => number? 10 rest.length true 0xffffffff rest).getD text

/-- An address with eight parts in brackets, with a port. -/
def bracketed? (text : List Char) : Option (List Char) := do
  let rest ← eightParts? (← char? '[' text)
  port? (← char? ']' (scope rest))

/-- Whether a text is a socket address: an address by number and a port. -/
def isSocketAddress (text : String) : Bool :=
  let plain := (fourParts? text.toList).bind port?
  plain.or (bracketed? text.toList) = some []

/-! ### The checks -/

/-- Where to listen, and what to serve beside the gateway. -/
structure Endpoint where
  host : String := "127.0.0.1"
  port : Nat := 3000
  staticDirectory : Option Path := none
  deriving DecidableEq, Repr

/-- The host and the port as one text. -/
def Endpoint.address (e : Endpoint) : String :=
  e.host ++ ":" ++ toString e.port

/-- Why a server does not start. -/
inductive ListenError where
  | staticDirectoryMissing (path : Path)
  | invalidAddress (address : String)
  deriving DecidableEq, Repr

/-- The text of the error. -/
def ListenError.message : ListenError → String
  | .staticDirectoryMissing path => "Static directory not found: " ++ path.text
  | .invalidAddress address => "Invalid address: " ++ address

/-- Checks an endpoint. A missing directory is told before a bad address. -/
def Endpoint.check (e : Endpoint) (fs : FileSystem) : Except ListenError Unit :=
  let missing := e.staticDirectory.filter fun p => !fs.isDirectory p
  match missing with
  | some path => .error (.staticDirectoryMissing path)
  | none => if isSocketAddress e.address then .ok () else .error (.invalidAddress e.address)

end ModuleGateway.Http
