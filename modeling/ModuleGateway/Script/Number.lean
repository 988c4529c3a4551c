import ModuleGateway.Script.Token

/-!
Numbers in their shortest spelling. A number counts as the nearest double. Its digits are the fewest
that read back as that double, and they are written in the shortest of the ways a script has.
-/

namespace ModuleGateway.Script.Number

/-- The number `digits · 10 ^ exponent`. -/
structure Scaled where
  digits : Nat
  exponent : Int
  deriving DecidableEq, Repr

/-- The double nearest to a number. -/
def Scaled.nearest (n : Scaled) : Float :=
  if n.exponent < 0 then Float.ofScientific n.digits true n.exponent.natAbs
  else Float.ofScientific n.digits false n.exponent.natAbs

/-- The number with one digit less, rounded to the nearest. -/
def Scaled.rounded (n : Scaled) (places : Nat) : Scaled :=
  let unit := Nat.pow 10 places
  ⟨(2 * n.digits + unit) / (2 * unit), n.exponent + places⟩

/-- How many digits a number has. -/
def Scaled.size (n : Scaled) : Nat :=
  (Nat.toDigits 10 n.digits).length

/-- The exact value of a double that is not negative: a whole number times a power of two, as a power
of ten with as many digits as that takes. -/
def exact (value : Float) : Scaled :=
  let bits := value.toBits.toNat
  let unit := Nat.pow 2 52
  let fraction := bits % unit
  let exponent := bits / unit % Nat.pow 2 11
  let whole := if exponent = 0 then fraction else fraction + unit
  let power : Int := ((if exponent = 0 then 1 else exponent : Nat) : Int) - 1075
  if power < 0 then ⟨whole * Nat.pow 5 power.natAbs, power⟩
  else ⟨whole * Nat.pow 2 power.natAbs, 0⟩

/-- The number with the fewest digits that has the same nearest double. -/
def shortest (value : Float) : Scaled :=
  let n := exact value
  let size := n.size
  let candidates := (List.range 17).filterMap fun kept =>
    if kept + 1 < size then some (n.rounded (size - (kept + 1))) else none
  (candidates.find? fun c => c.nearest == value).getD n

/-- The number without zeros at the end of its digits. -/
def Scaled.trimmedFor : Nat → Scaled → Scaled
  | 0, n => n
  | turns + 1, n =>
    if n.digits ≠ 0 && n.digits % 10 = 0 then trimmedFor turns ⟨n.digits / 10, n.exponent + 1⟩
    else n

/-- The number without zeros at the end of its digits. -/
def Scaled.trimmed (n : Scaled) : Scaled :=
  trimmedFor n.size n

/-- The plain spelling: positional between a millionth and `10 ^ 21`, else with an exponent. -/
def plain (n : Scaled) : List Char :=
  let digits := Nat.toDigits 10 n.digits
  let count : Int := digits.length
  let point := count + n.exponent
  if n.digits = 0 then ['0']
  else if 0 ≤ n.exponent && point ≤ 21 then digits ++ List.replicate n.exponent.toNat '0'
  else if 0 < point && point ≤ 21 then
    digits.take point.toNat ++ '.' :: digits.drop point.toNat
  else if -6 < point && point ≤ 0 then
    ['0', '.'] ++ List.replicate (-point).toNat '0' ++ digits
  else
    let exponent := point - 1
    let sign := if exponent < 0 then ['-'] else []
    let tail := Nat.toDigits 10 exponent.natAbs
    let fraction := if digits.length = 1 then [] else '.' :: digits.drop 1
    digits.take 1 ++ fraction ++ 'e' :: sign ++ tail

/-- The shorter of two texts; of two equally long ones the first. -/
def shorter (first second : List Char) : List Char :=
  if second.length < first.length then second else first

/-- The spellings of a double that are not plain: whole digits with an exponent, and for a whole
number the exact digits in base sixteen. -/
def spellings (value : Float) (n : Scaled) : List (List Char) :=
  let digits := Nat.toDigits 10 n.digits
  let scaled :=
    if n.exponent = 0 then digits
    else
      digits ++ 'e' :: (if n.exponent < 0 then ['-'] else []) ++
        Nat.toDigits 10 n.exponent.natAbs
  if 0 ≤ n.exponent then
    let whole := exact value
    let exactly := if whole.exponent < 0 then whole.digits / Nat.pow 10 whole.exponent.natAbs
      else whole.digits
    [['0', 'x'] ++ Text.hex exactly, scaled]
  else [scaled]

/-- The shortest spelling of a double. Whole numbers below a thousand are always plain, and no zero
stands in front of a point. -/
def spell (value : Float) : String :=
  let n := (shortest value).trimmed
  let written := plain n
  let pointed := match written with
    | '0' :: '.' :: rest => '.' :: rest
    | _ => written
  if 0 ≤ n.exponent && n.digits * Nat.pow 10 n.exponent.toNat < 1000 then
    String.ofList written
  else String.ofList ((spellings value n).foldl shorter pointed)

/-- A number in base ten. -/
def decimal (written : List Char) : Scaled :=
  let mantissa := written.takeWhile fun c => c ≠ 'e' && c ≠ 'E'
  let tail := written.drop (mantissa.length + 1)
  let exponent : Int := match tail with
    | '-' :: rest => -(Text.numberIn 10 rest : Int)
    | '+' :: rest => Text.numberIn 10 rest
    | rest => Text.numberIn 10 rest
  let whole := mantissa.takeWhile (· ≠ '.')
  let fraction := mantissa.drop (whole.length + 1)
  ⟨Text.numberIn 10 (whole ++ fraction), exponent - fraction.length⟩

/-- The number that a literal writes. A zero in front of octal digits marks base eight. -/
def scaled (written : List Char) : Scaled :=
  match written with
  | '0' :: c :: rest =>
    if c = 'x' || c = 'X' then ⟨Text.numberIn 16 rest, 0⟩
    else if c = 'o' || c = 'O' then ⟨Text.numberIn 8 rest, 0⟩
    else if c = 'b' || c = 'B' then ⟨Text.numberIn 2 rest, 0⟩
    else if (c :: rest).all fun d => (octal? d).isSome then ⟨Text.numberIn 8 (c :: rest), 0⟩
    else decimal written
  | _ => decimal written

/-- The shortest spelling of a literal. A number beyond all doubles is infinity; one of any length, with
an `n` behind it, stays as it is written. -/
def normal (written : String) : String :=
  let digits := written.toList.filter (· ≠ '_')
  if digits.getLast? = some 'n' then String.ofList digits
  else
    let value := (scaled digits).nearest
    if value.isInf then "Infinity"
    else spell value

end ModuleGateway.Script.Number
