import SchemaBindings.Json.Value

/-! Reading a JSON text. The reader is strict: the four blanks of the format and no others, no
text after the value, no control character inside a string, no half of a surrogate pair, and
at most `nestingLimit` arrays and objects inside one another. -/

namespace SchemaBindings.Json

def nestingLimit : Nat := 127

def isFormatBlank (c : Char) : Bool := c == ' ' || c == '\t' || c == '\n' || c == '\r'

def skipBlanks (cs : List Char) : List Char := cs.dropWhile isFormatBlank

def hexDigit? (c : Char) : Option Nat :=
  if '0' ≤ c ∧ c ≤ '9' then some (c.toNat - '0'.toNat)
  else if 'a' ≤ c ∧ c ≤ 'f' then some (c.toNat - 'a'.toNat + 10)
  else if 'A' ≤ c ∧ c ≤ 'F' then some (c.toNat - 'A'.toNat + 10)
  else none

/-- The code unit that four hexadecimal digits write. -/
def codeUnit? (a b c d : Char) : Option Nat := do
  return (((← hexDigit? a) * 16 + (← hexDigit? b)) * 16 + (← hexDigit? c)) * 16 + (← hexDigit? d)

def isHighHalf (unit : Nat) : Bool := 0xD800 ≤ unit && unit < 0xDC00

def isLowHalf (unit : Nat) : Bool := 0xDC00 ≤ unit && unit < 0xE000

def joinHalves (high low : Nat) : Char :=
  Char.ofNat (0x10000 + (high - 0xD800) * 0x400 + (low - 0xDC00))

/-- What a backslash and one more character stand for. -/
def shortEscape? : Char → Option Char
  | '"' => some '"'
  | '\\' => some '\\'
  | '/' => some '/'
  | 'b' => some '\x08'
  | 'f' => some '\x0C'
  | 'n' => some '\n'
  | 'r' => some '\r'
  | 't' => some '\t'
  | _ => none

/-- The characters of a string up to its closing quote, and the text after the quote. -/
def readQuoted : List Char → Option (List Char × List Char)
  | [] => none
  | '"' :: rest => some ([], rest)
  | '\\' :: 'u' :: a :: b :: c :: d :: rest => do
    let unit ← codeUnit? a b c d
    if isHighHalf unit then
      match rest with
      | '\\' :: 'u' :: e :: f :: g :: h :: rest =>
        let low ← codeUnit? e f g h
        if isLowHalf low then
          let (text, rest) ← readQuoted rest
          return (joinHalves unit low :: text, rest)
        else none
      | _ => none
    else if isLowHalf unit then none
    else
      let (text, rest) ← readQuoted rest
      return (Char.ofNat unit :: text, rest)
  | '\\' :: c :: rest => do
    let c ← shortEscape? c
    let (text, rest) ← readQuoted rest
    return (c :: text, rest)
  | c :: rest =>
    if c == '\\' || c.toNat < 0x20 then none
    else do
      let (text, rest) ← readQuoted rest
      return (c :: text, rest)

def digitsOf (cs : List Char) : List Nat := cs.map (fun c => c.toNat - '0'.toNat)

def valueOf (digits : List Nat) : Nat := digits.foldl (fun n d => n * 10 + d) 0

/-- Appends digits to a number as long as it stays below 64 bits, and gives the digits left. -/
def appendDigits : Nat → List Nat → Nat × List Nat
  | n, [] => (n, [])
  | n, d :: rest =>
    if n * 10 + d < Nat.pow 2 64 then appendDigits (n * 10 + d) rest else (n, d :: rest)

/-- The digits of a number as a significand of 64 bits and a power of ten. Digits before the point
that no longer fit count as zeros, those after it are dropped. -/
def significand (whole fraction : List Nat) : Nat × Int :=
  let (n, unread) := appendDigits 0 whole
  let (n, dropped) := appendDigits n fraction
  (n, (unread.length : Int) - ((fraction.length - dropped.length : Nat) : Int))

/-- Rounds to 53 significant binary digits, a tie to the even neighbour. -/
def roundTo53Bits (n : Nat) : Nat :=
  let excess := n.log2 + 1 - 53
  let unit := Nat.pow 2 excess
  let quotient := n / unit
  let rest := 2 * (n % unit)
  if rest > unit || rest == unit && quotient % 2 == 1 then (quotient + 1) * unit
  else quotient * unit

/-- Whether a significand times a power of ten, both rounded to 53 bits, still rounds to a finite
number of double precision. -/
def isFinite (n : Nat) (exponent : Int) : Bool :=
  n == 0 || exponent < 0 ||
    exponent ≤ 308 &&
      roundTo53Bits n * roundTo53Bits (Nat.pow 10 exponent.toNat) < Nat.pow 2 1024 - Nat.pow 2 970

/-- The number that its sign, its digits and its exponent write; `none` beyond all finite ones. -/
def Number.ofDigits? (negative : Bool) (whole : List Char) (fraction : Option (List Char))
    (exponent : Option Int) : Option Number :=
  let value := valueOf (digitsOf whole)
  if fraction.isNone && exponent.isNone && !negative && value < Nat.pow 2 64 then
    some (.whole value)
  else if fraction.isNone && exponent.isNone && negative && 0 < value && value ≤ Nat.pow 2 63 then
    some (.whole (-value))
  else
    let (n, shift) := significand (digitsOf whole) (digitsOf (fraction.getD []))
    let power := shift + exponent.getD 0
    if isFinite n power then some (.decimal (if negative then -n else n) power) else none

def takeDigits (cs : List Char) : List Char × List Char :=
  (cs.takeWhile Char.isDigit, cs.dropWhile Char.isDigit)

/-- The digits after a point; a point without digits is an error. -/
def readFraction? : List Char → Option (Option (List Char) × List Char)
  | '.' :: rest =>
    let (digits, rest) := takeDigits rest
    if digits.isEmpty then none else some (some digits, rest)
  | rest => some (none, rest)

def readExponent? : List Char → Option (Option Int × List Char)
  | [] => some (none, [])
  | e :: rest =>
    if e == 'e' || e == 'E' then
      let (negative, rest) := match rest with
        | '+' :: rest => (false, rest)
        | '-' :: rest => (true, rest)
        | rest => (false, rest)
      let (digits, rest) := takeDigits rest
      let value : Int := valueOf (digitsOf digits)
      if digits.isEmpty then none
      else some (some (if negative then -value else value), rest)
    else some (none, e :: rest)

/-- A number starts with a single zero or with another digit. -/
def readNumber? (cs : List Char) : Option (Number × List Char) := do
  let (negative, cs) := match cs with
    | '-' :: rest => (true, rest)
    | rest => (false, rest)
  let (whole, rest) := takeDigits cs
  if whole.isEmpty || whole.head? == some '0' && whole.length != 1 then none
  else
    let (fraction, rest) ← readFraction? rest
    let (exponent, rest) ← readExponent? rest
    let value ← Number.ofDigits? negative whole fraction exponent
    return (value, rest)

/-- Reads `item, item, … ]`, at most as many items as the first argument says. -/
def readItems (readValue : List Char → Option (Json × List Char)) :
    Nat → List Char → Option (List Json × List Char)
  | 0, _ => none
  | fuel + 1, cs => do
    let (item, rest) ← readValue cs
    match skipBlanks rest with
    | ']' :: rest => return ([item], rest)
    | ',' :: rest =>
      let (items, rest) ← readItems readValue fuel rest
      return (item :: items, rest)
    | _ => none

/-- Reads `"key": value, "key": value, … }`. -/
def readMembers (readValue : List Char → Option (Json × List Char)) :
    Nat → List Char → Option (List (String × Json) × List Char)
  | 0, _ => none
  | fuel + 1, cs =>
    match skipBlanks cs with
    | '"' :: rest => do
      let (key, rest) ← readQuoted rest
      match skipBlanks rest with
      | ':' :: rest =>
        let (value, rest) ← readValue rest
        match skipBlanks rest with
        | '\x7d' :: rest => return ([(String.ofList key, value)], rest)
        | ',' :: rest =>
          let (members, rest) ← readMembers readValue fuel rest
          return ((String.ofList key, value) :: members, rest)
        | _ => none
      | _ => none
    | _ => none

/-- Reads one value with at most `depth` arrays and objects inside one another. -/
def readValue : Nat → List Char → Option (Json × List Char)
  | depth, cs =>
    match skipBlanks cs with
    | 'n' :: 'u' :: 'l' :: 'l' :: rest => some (.null, rest)
    | 't' :: 'r' :: 'u' :: 'e' :: rest => some (.bool true, rest)
    | 'f' :: 'a' :: 'l' :: 's' :: 'e' :: rest => some (.bool false, rest)
    | '"' :: rest => do
      let (text, rest) ← readQuoted rest
      return (.string (String.ofList text), rest)
    | '[' :: rest =>
      match depth with
      | 0 => none
      | depth + 1 =>
        match skipBlanks rest with
        | ']' :: rest => some (.array [], rest)
        | rest => do
          let (items, rest) ← readItems (readValue depth) rest.length rest
          return (.array items, rest)
    | '\x7b' :: rest =>
      match depth with
      | 0 => none
      | depth + 1 =>
        match skipBlanks rest with
        | '\x7d' :: rest => some (.object [], rest)
        | rest => do
          let (members, rest) ← readMembers (readValue depth) rest.length rest
          return (.object members, rest)
    | rest => do
      let (value, rest) ← readNumber? rest
      return (.number value, rest)

/-- The value that a whole text writes, `none` when it writes none. -/
def ofText? (text : String) : Option Json := do
  let (value, rest) ← readValue nestingLimit text.toList
  if (skipBlanks rest).isEmpty then return value else none

end SchemaBindings.Json
