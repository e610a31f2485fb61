import ChessArbiter.Json.Basic

/-! # Reading JSON

A recursive descent over the characters of a document. Each function returns what it read and the
characters after it. The nesting of values is bounded by the length of the text, which `parse?`
turns into the number of calls that may be open at once.

A string is read in two passes: `units` finds its end and gives one number for each character or
escape, and `assemble` joins the two halves of each surrogate pair.
-/

namespace ChessArbiter.Json

/-- The four blank characters of the format. -/
def isSpace (c : Char) : Bool :=
  c == ' ' || c == '\n' || c == '\t' || c == '\r'

def skipSpace (text : List Char) : List Char :=
  text.dropWhile isSpace

/-- The value of a hexadecimal digit of either case. -/
def hexValue? (c : Char) : Option Nat :=
  if '0' ≤ c ∧ c ≤ '9' then some (c.toNat - '0'.toNat)
  else if 'a' ≤ c ∧ c ≤ 'f' then some (c.toNat - 'a'.toNat + 10)
  else if 'A' ≤ c ∧ c ≤ 'F' then some (c.toNat - 'A'.toNat + 10)
  else none

/-- The value of four hexadecimal digits. -/
def hexUnit? (a b c d : Char) : Option Nat := do
  let a ← hexValue? a
  let b ← hexValue? b
  let c ← hexValue? c
  let d ← hexValue? d
  return ((a * 16 + b) * 16 + c) * 16 + d

/-- The character that a backslash and a letter stand for. -/
def escape? (c : Char) : Option Char :=
  if c == '"' || c == '\\' || c == '/' then some c
  else if c == 'b' then some '\x08'
  else if c == 'f' then some '\x0c'
  else if c == 'n' then some '\n'
  else if c == 'r' then some '\r'
  else if c == 't' then some '\t'
  else none

/-- The characters and escapes of a string, up to and past its closing quotation mark. -/
def units : List Char → Option (List Nat × List Char)
  | [] => none
  | '"' :: rest => some ([], rest)
  | '\\' :: 'u' :: a :: b :: c :: d :: rest => do
    let unit ← hexUnit? a b c d
    let (following, rest) ← units rest
    return (unit :: following, rest)
  | '\\' :: c :: rest => do
    let c ← escape? c
    let (following, rest) ← units rest
    return (c.toNat :: following, rest)
  | c :: rest =>
    if c.toNat < 0x20 || c == '\\' then none
    else do
      let (following, rest) ← units rest
      return (c.toNat :: following, rest)

def isLeadSurrogate (unit : Nat) : Bool :=
  0xD800 ≤ unit && unit < 0xDC00

def isTrailSurrogate (unit : Nat) : Bool :=
  0xDC00 ≤ unit && unit < 0xE000

/-- The characters that a sequence of units stands for. -/
def assemble : List Nat → Option (List Char)
  | [] => some []
  | [unit] =>
    if isLeadSurrogate unit || isTrailSurrogate unit then none else some [Char.ofNat unit]
  | lead :: trail :: rest =>
    if isLeadSurrogate lead && isTrailSurrogate trail then
      (assemble rest).map (Char.ofNat (0x10000 + (lead - 0xD800) * 0x400 + (trail - 0xDC00)) :: ·)
    else if isLeadSurrogate lead || isTrailSurrogate lead then none
    else (assemble (trail :: rest)).map (Char.ofNat lead :: ·)

/-- A string, from after its opening quotation mark. -/
def readText (text : List Char) : Option (Json.Content × List Char) :=
  (units text).map fun (content, rest) => ((assemble content).map String.ofList, rest)

/-- One or more digits. -/
def readDigits (text : List Char) : Option (List Char × List Char) :=
  let (run, rest) := text.span Char.isDigit
  if run.isEmpty then none else some (run, rest)

/-- The digits in front of a number's point: a single zero, or digits that begin with another. -/
def readWhole (text : List Char) : Option (List Char × List Char) :=
  match readDigits text with
  | some (run, rest) => if run.head? == some '0' && run.length != 1 then none else some (run, rest)
  | none => none

/-- A point and digits, or nothing. -/
def readFraction : List Char → Option (List Char × List Char)
  | '.' :: text => (readDigits text).map fun (run, rest) => ('.' :: run, rest)
  | text => some ([], text)

/-- The mark of an exponent, a sign where there is one, and digits; or nothing. -/
def readExponent : List Char → Option (List Char × List Char)
  | [] => some ([], [])
  | mark :: text =>
    if mark == 'e' || mark == 'E' then
      match text with
      | '+' :: text => (readDigits text).map fun (run, rest) => (mark :: '+' :: run, rest)
      | '-' :: text => (readDigits text).map fun (run, rest) => (mark :: '-' :: run, rest)
      | text => (readDigits text).map fun (run, rest) => (mark :: run, rest)
    else some ([], mark :: text)

/-- A number without its sign. -/
def readMagnitude (text : List Char) : Option (List Char × List Char) := do
  let (whole, rest) ← readWhole text
  let (fraction, rest) ← readFraction rest
  let (exponent, rest) ← readExponent rest
  return (whole ++ fraction ++ exponent, rest)

/-- The literal of a number. -/
def readNumber : List Char → Option (List Char × List Char)
  | '-' :: text => (readMagnitude text).map fun (literal, rest) => ('-' :: literal, rest)
  | text => readMagnitude text

mutual

/-- A value, after any space. -/
def readValue : Nat → List Char → Option (Json × List Char)
  | 0, _ => none
  | depth + 1, text =>
    match skipSpace text with
    | 'n' :: 'u' :: 'l' :: 'l' :: rest => some (.null, rest)
    | 't' :: 'r' :: 'u' :: 'e' :: rest => some (.bool true, rest)
    | 'f' :: 'a' :: 'l' :: 's' :: 'e' :: rest => some (.bool false, rest)
    | '"' :: rest => (readText rest).map fun (content, rest) => (.string content, rest)
    | '[' :: rest =>
      match skipSpace rest with
      | ']' :: rest => some (.array [], rest)
      | rest => (readItems depth rest).map fun (items, rest) => (.array items, rest)
    | '{' :: rest =>
      match skipSpace rest with
      | '}' :: rest => some (.object [], rest)
      | rest => (readFields depth rest).map fun (fields, rest) => (.object fields, rest)
    | rest => (readNumber rest).map fun (literal, rest) => (.number literal, rest)

/-- One or more values up to and past the closing bracket. -/
def readItems : Nat → List Char → Option (List Json × List Char)
  | 0, _ => none
  | depth + 1, text => do
    let (item, rest) ← readValue depth text
    match skipSpace rest with
    | ',' :: rest =>
      let (items, rest) ← readItems depth rest
      return (item :: items, rest)
    | ']' :: rest => return ([item], rest)
    | _ => none

/-- One or more fields up to and past the closing brace. -/
def readFields : Nat → List Char → Option (List (Json.Content × Json) × List Char)
  | 0, _ => none
  | depth + 1, text =>
    match skipSpace text with
    | '"' :: rest => do
      let (name, rest) ← readText rest
      match skipSpace rest with
      | ':' :: rest =>
        let (value, rest) ← readValue depth rest
        match skipSpace rest with
        | ',' :: rest =>
          let (fields, rest) ← readFields depth rest
          return ((name, value) :: fields, rest)
        | '}' :: rest => return ([(name, value)], rest)
        | _ => none
      | _ => none
    | _ => none

end

/-- The value of a document: one value with nothing but space around it. -/
def parse? (text : String) : Option Json :=
  match readValue (2 * text.length + 2) text.toList with
  | some (value, rest) => if (skipSpace rest).isEmpty then some value else none
  | none => none

end ChessArbiter.Json
