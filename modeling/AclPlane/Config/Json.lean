import AclPlane.Config.Document

/-!
Documents in JSON.

The grammar is strict: no comments, no trailing commas, no control characters in strings, and
one value to a text.  A string escape may name half of a surrogate pair; such a string is well
formed but is no text.

* `Json.document?` — the document of a text.
-/

namespace AclPlane.Json

/-! ### Blanks and digits -/

/-- The blanks of JSON. -/
def isBlank (c : Char) : Bool := c == ' ' || c == '\t' || c == '\n' || c == '\r'

/-- Drops leading blanks. -/
def skipBlanks (cs : List Char) : List Char := cs.dropWhile isBlank

/-- The value of a decimal digit. -/
def digit? (c : Char) : Option Nat := if c.isDigit then some (c.toNat - '0'.toNat) else none

/-- The value of a hexadecimal digit. -/
def hexDigit? (c : Char) : Option Nat :=
  if c.isDigit then some (c.toNat - '0'.toNat)
  else if 'a' ≤ c ∧ c ≤ 'f' then some (c.toNat - 'a'.toNat + 10)
  else if 'A' ≤ c ∧ c ≤ 'F' then some (c.toNat - 'A'.toNat + 10)
  else none

/-- The number that decimal digits spell. -/
def decimal (digits : List Char) : Nat :=
  digits.foldl (fun n c => n * 10 + (c.toNat - '0'.toNat)) 0

/-! ### Numbers -/

/-- Reads one digit or more. -/
def digits1? (cs : List Char) : Option (List Char × List Char) :=
  match cs.span Char.isDigit with
  | ([], _) => none
  | result => some result

/-- Reads the integer part of a number: zero, or digits that do not begin with zero. -/
def integer? (cs : List Char) : Option (List Char × List Char) :=
  match digits1? cs with
  | some ('0' :: _ :: _, _) => none
  | result => result

/-- Passes over a fraction, if there is one. -/
def skipFraction? : List Char → Option (Bool × List Char)
  | '.' :: rest => (digits1? rest).map (fun r => (true, r.2))
  | cs => some (false, cs)

/-- Passes over an exponent, if there is one. -/
def skipExponent? : List Char → Option (Bool × List Char)
  | 'e' :: rest | 'E' :: rest =>
    let unsigned := match rest with
      | '+' :: r | '-' :: r => r
      | r => r
    (digits1? unsigned).map (fun r => (true, r.2))
  | cs => some (false, cs)

/-- Reads a number.  Only integers without a sign are of use. -/
def number? (negative : Bool) (cs : List Char) : Option (Document × List Char) := do
  let (digits, rest) ← integer? cs
  let (fraction, rest) ← skipFraction? rest
  let (exponent, rest) ← skipExponent? rest
  let plain := !negative && !fraction && !exponent
  return (if plain then .number (decimal digits) else .other, rest)

/-! ### Strings -/

/-- Reads the four hexadecimal digits of an escape. -/
def unit? : List Char → Option (Nat × List Char)
  | a :: b :: c :: d :: rest => do
    let a ← hexDigit? a
    let b ← hexDigit? b
    let c ← hexDigit? c
    let d ← hexDigit? d
    return (((a * 16 + b) * 16 + c) * 16 + d, rest)
  | _ => none

/-- The characters of escapes of one letter. -/
def simpleEscape? : Char → Option Char
  | '"' => some '"'
  | '\\' => some '\\'
  | '/' => some '/'
  | 'b' => some '\x08'
  | 'f' => some '\x0c'
  | 'n' => some '\n'
  | 'r' => some '\r'
  | 't' => some '\t'
  | _ => none

/-- The UTF-16 units of a string after its opening quote, and what follows its closing quote. -/
def units? : Nat → List Char → Option (List Nat × List Char)
  | 0, _ => none
  | fuel + 1, cs =>
    match cs with
    | [] => none
    | '"' :: rest => some ([], rest)
    | '\\' :: 'u' :: rest => do
      let (unit, rest) ← unit? rest
      let (units, rest) ← units? fuel rest
      return (unit :: units, rest)
    | '\\' :: c :: rest => do
      let c ← simpleEscape? c
      let (units, rest) ← units? fuel rest
      return (c.toNat :: units, rest)
    | c :: rest => do
      if c.toNat < 0x20 then none
      let (units, rest) ← units? fuel rest
      if c.toNat < 0x10000 then return (c.toNat :: units, rest)
      let offset := c.toNat - 0x10000
      return ((0xd800 + offset / 0x400) :: (0xdc00 + offset % 0x400) :: units, rest)

/-- The text of UTF-16 units, unless half of a surrogate pair stands alone. -/
def textOfUnits? : List Nat → Option (List Char)
  | [] => some []
  | [u] => if 0xd800 ≤ u ∧ u < 0xe000 then none else some [Char.ofNat u]
  | u :: v :: rest =>
    if 0xd800 ≤ u ∧ u < 0xdc00 then
      if 0xdc00 ≤ v ∧ v < 0xe000 then
        (textOfUnits? rest).map
          (Char.ofNat (0x10000 + (u - 0xd800) * 0x400 + (v - 0xdc00)) :: ·)
      else none
    else if 0xdc00 ≤ u ∧ u < 0xe000 then none
    else (textOfUnits? (v :: rest)).map (Char.ofNat u :: ·)

/-- Reads a string after its opening quote.  The text is missing where half of a surrogate pair
stands alone. -/
def string? (cs : List Char) : Option (Option String × List Char) := do
  let (units, rest) ← units? (cs.length + 1) cs
  return ((textOfUnits? units).map String.ofList, rest)

/-! ### Values -/

mutual

/-- Reads a value that may follow blanks. -/
def value? : Nat → List Char → Option (Document × List Char)
  | 0, _ => none
  | fuel + 1, cs =>
    match skipBlanks cs with
    | 't' :: 'r' :: 'u' :: 'e' :: rest => some (.other, rest)
    | 'f' :: 'a' :: 'l' :: 's' :: 'e' :: rest => some (.other, rest)
    | 'n' :: 'u' :: 'l' :: 'l' :: rest => some (.other, rest)
    | '"' :: rest => (string? rest).map (fun r => (.other, r.2))
    | '-' :: rest => number? true rest
    | '[' :: rest =>
      match skipBlanks rest with
      | ']' :: rest => some (.list [], rest)
      | rest => (items? fuel rest).map (fun r => (.list r.1, r.2))
    | '{' :: rest =>
      match skipBlanks rest with
      | '}' :: rest => some (.record [], rest)
      | rest => (members? fuel rest).map (fun r => (.record r.1, r.2))
    | rest => number? false rest

/-- Reads the items of an array that has some, and the closing bracket. -/
def items? : Nat → List Char → Option (List Document × List Char)
  | 0, _ => none
  | fuel + 1, cs => do
    let (item, rest) ← value? fuel cs
    match skipBlanks rest with
    | ',' :: rest =>
      let (items, rest) ← items? fuel rest
      return (item :: items, rest)
    | ']' :: rest => return ([item], rest)
    | _ => none

/-- Reads the members of an object that has some, and the closing brace. -/
def members? : Nat → List Char → Option (List (Option String × Document) × List Char)
  | 0, _ => none
  | fuel + 1, cs =>
    match skipBlanks cs with
    | '"' :: rest => do
      let (name, rest) ← string? rest
      match skipBlanks rest with
      | ':' :: rest =>
        let (item, rest) ← value? fuel rest
        match skipBlanks rest with
        | ',' :: rest =>
          let (items, rest) ← members? fuel rest
          return ((name, item) :: items, rest)
        | '}' :: rest => return ([(name, item)], rest)
        | _ => none
      | _ => none
    | _ => none

end

/-- The document of a text that holds one value and nothing else. -/
def document? (text : String) : Option Document :=
  let cs := text.toList
  match value? (2 * cs.length + 2) cs with
  | some (d, rest) => if (skipBlanks rest).isEmpty then some d else none
  | none => none

end AclPlane.Json
