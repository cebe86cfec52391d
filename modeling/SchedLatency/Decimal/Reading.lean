namespace SchedLatency.Decimal

def digitValue? (base : Nat) (c : Char) : Option Nat :=
  let value? :=
    if '0'≤c && c ≤ '9' then some (c.toNat-48)
    else if 'a'≤c && c ≤ 'z' then some (c.toNat-87)
    else if 'A'≤c && c ≤ 'Z' then some (c.toNat-55)
    else none
  value?.filter (·<base)

def readDigits (base value : Nat) : List Char → Option Nat
  | [] => some value
  | c :: rest => (digitValue? base c).bind fun d => readDigits base (value*base+d) rest

def natural? (base : Nat) (text : List Char) : Option Nat :=
  if text.isEmpty then none else readDigits base 0 text

def unsigned? (base : Nat) : List Char → Option Nat
  | '+' :: rest => natural? base rest
  | text => natural? base text

def signed? (base : Nat) : List Char → Option Int
  | '-' :: rest => (natural? base rest).map fun n => -(n : Int)
  | text => (unsigned? base text).map fun n => (n : Int)

def word? (text : String) : Option UInt64 :=
  ((unsigned? 10 text.toList).filter (·<UInt64.size)).map UInt64.ofNat

def fitsSigned (n : Int) : Bool :=
  let bound : Int := Nat.pow 2 63
  n<bound && -bound≤n

def signedWord? (base : Nat) (text : List Char) : Option Int :=
  (signed? base text).filter fitsSigned

structure Digits where
  value : Nat := 0
  count : Nat := 0
  places : Nat := 0

/-- Takes digits, and with `point` set counts them as places. -/
def Digits.take (point : Bool) (d : Digits) : List Char → Digits×List Char
  | [] => (d,[])
  | c :: rest =>
    match digitValue? 10 c with
    | some v =>
      let places := if point then d.places+1 else d.places
      Digits.take point ⟨d.value*10+v,d.count+1,places⟩ rest
    | none => (d,c :: rest)

def exponent? : List Char → Option Int
  | [] => some 0
  | c :: rest => if c = 'e' || c = 'E' then signed? 10 rest else none

/-- A decimal fraction: digits with an optional point, of which at least one digit, then an
optional exponent. -/
def fraction? (text : List Char) : Option Float :=
  let (whole,rest) := ({} : Digits).take false text
  let (all,rest) := match rest with
    | '.' :: rest => whole.take true rest
    | rest => (whole,rest)
  if all.count=0 then none
  else (exponent? rest).map fun e =>
    let power : Int := e-all.places
    Float.ofScientific all.value (power<0) power.natAbs

/-- A double without its sign; the names of the non-numbers are read in any case. -/
def magnitude? (text : List Char) : Option Float :=
  let name := String.ofList (text.map Char.toLower)
  if name = "inf" || name = "infinity" then some (Float.ofBits 0x7ff0000000000000)
  else if name = "nan" then some (Float.ofBits 0x7ff8000000000000)
  else fraction? text

def double? (text : String) : Option Float :=
  match text.toList with
  | '-' :: rest => (magnitude? rest).map Float.neg
  | '+' :: rest => magnitude? rest
  | rest => magnitude? rest

end SchedLatency.Decimal
