import AclPlane.Config.Yaml.Cursor

/-!
Scalars in a YAML text: single-quoted, double-quoted and plain.

* `quoted?` — reads a quoted scalar after its opening quote.
* `plain?` — reads a plain scalar.
-/

namespace AclPlane.Yaml

/-! ### Quoted scalars -/

/-- The characters of escapes of one letter. -/
def simpleEscape? : Char → Option Char
  | '0' => some '\x00'
  | 'a' => some '\x07'
  | 'b' => some '\x08'
  | 't' => some '\t'
  | '\t' => some '\t'
  | 'n' => some '\n'
  | 'v' => some '\x0b'
  | 'f' => some '\x0c'
  | 'r' => some '\r'
  | 'e' => some '\x1b'
  | ' ' => some ' '
  | '"' => some '"'
  | '/' => some '/'
  | '\\' => some '\\'
  | 'N' => some '\x85'
  | '_' => some '\xa0'
  | 'L' => some '\u2028'
  | 'P' => some '\u2029'
  | _ => none

/-- The number of hexadecimal digits of an escape. -/
def escapeWidth? : Char → Option Nat
  | 'x' => some 2
  | 'u' => some 4
  | 'U' => some 8
  | _ => none

/-- The value of a hexadecimal digit. -/
def hexDigit? (c : Char) : Option Nat :=
  if c.isDigit then some (c.toNat - '0'.toNat)
  else if 'a' ≤ c ∧ c ≤ 'f' then some (c.toNat - 'a'.toNat + 10)
  else if 'A' ≤ c ∧ c ≤ 'F' then some (c.toNat - 'A'.toNat + 10)
  else none

/-- The character with the code that the next hexadecimal digits spell. -/
def codeEscape? (width : Nat) (cs : List Char) : Option Char := do
  let digits ← (cs.take width).mapM hexDigit?
  if digits.length < width then none
  let code := digits.foldl (fun n d => n * 16 + d) 0
  if (0xd800 ≤ code ∧ code < 0xe000) ∨ 0x10ffff < code then none
  return Char.ofNat code

/-- Reads the characters of a quoted scalar up to a blank, a line break or the closing quote;
an escaped line break opens a gap.  The characters are put in front of `acc`. -/
def quotedRun? (double : Bool) : Nat → Cursor → List Char → Option (Cursor × List Char × Gap)
  | 0, _, _ => none
  | fuel + 1, c, acc =>
    match c.rest with
    | [] => none
    | ch :: rest =>
      if isBlank ch || isBreak ch then some (c, acc, Gap.none)
      else if double then
        if ch == '"' then some (c, acc, Gap.none)
        else if ch == '\\' then
          match rest with
          | [] => none
          | e :: rest' =>
            if isBreak e then some (c.next.nextLine, acc, ⟨[], some [], []⟩)
            else match simpleEscape? e, escapeWidth? e with
              | some x, _ => quotedRun? double fuel (c.skip 2) (x :: acc)
              | none, some width => do
                let x ← codeEscape? width rest'
                quotedRun? double fuel (c.skip (2 + width)) (x :: acc)
              | none, none => none
        else quotedRun? double fuel c.next (ch :: acc)
      else if ch == '\'' then
        match rest with
        | '\'' :: _ => quotedRun? double fuel (c.skip 2) ('\'' :: acc)
        | _ => some (c, acc, Gap.none)
      else quotedRun? double fuel c.next (ch :: acc)

/-- Reads a quoted scalar after its opening quote, up to and with the closing one. -/
def quoted? (double : Bool) : Nat → Cursor → List Char → Option (Cursor × List Char)
  | 0, _, _ => none
  | fuel + 1, c, acc =>
    if c.atDocumentMarker then none
    else do
      let (c, acc, gap) ← quotedRun? double (fuel + 1) c acc
      if gap.firstBreak.isNone && c.rest.head? == some (if double then '"' else '\'') then
        return (c.next, acc.reverse)
      let (c, gap) ← Gap.read? 0 (fuel + 1) c gap
      quoted? double fuel c (gap.text.reverse ++ acc)

/-! ### Plain scalars -/

/-- The indicators of flow collections. -/
def isFlowIndicator (c : Char) : Bool :=
  c == ',' || c == '[' || c == ']' || c == '{' || c == '}'

/-- Reads the characters of a plain scalar up to a blank, a line break or an indicator that ends
it.  In a flow collection, no colon may stand directly before an indicator.  The characters are
put in front of `acc`. -/
def plainRun? (flow : Bool) : Nat → Cursor → List Char → Option (Cursor × List Char)
  | 0, _, _ => none
  | fuel + 1, c, acc =>
    match c.rest with
    | [] => some (c, acc)
    | ch :: rest =>
      if isBlank ch || isBreak ch then some (c, acc)
      else if flow && ch == ':' &&
          (match rest with
            | e :: _ => isFlowIndicator e || e == '?'
            | [] => false) then none
      else if (ch == ':' && startsBlank rest) || (flow && isFlowIndicator ch) then some (c, acc)
      else plainRun? flow fuel c.next (ch :: acc)

/-- Reads a plain scalar: runs of characters with gaps between them, each line indented by at
least `indent` in block context.  The result tells also whether the last gap holds a line
break. -/
def plain? (flow : Bool) (indent : Nat) :
    Nat → Cursor → List Char → Gap → Option (Cursor × List Char × Bool)
  | 0, _, _, _ => none
  | fuel + 1, c, acc, gap =>
    let broken := gap.firstBreak.isSome
    if c.atDocumentMarker || c.rest.head? == some '#' then some (c, acc.reverse, broken)
    else do
      let (c', run) ← plainRun? flow (fuel + 1) c []
      if run.isEmpty then return (c', acc.reverse, broken)
      let acc := run ++ gap.text.reverse ++ acc
      match c'.rest with
      | [] => return (c', acc.reverse, false)
      | ch :: _ =>
        if !(isBlank ch || isBreak ch) then return (c', acc.reverse, false)
        let (c'', gap) ← Gap.read? indent (fuel + 1) c' Gap.none
        if !flow && c''.column < indent then return (c'', acc.reverse, gap.firstBreak.isSome)
        plain? flow indent fuel c'' acc gap

end AclPlane.Yaml
