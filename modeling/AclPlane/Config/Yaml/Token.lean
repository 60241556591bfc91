import AclPlane.Config.Yaml.Scalar

/-!
Tokens of a YAML text.

Indentation opens and closes block collections, and a colon makes a key of what stands before
it on the line.  Both are settled here, so that the tokens alone have a plain grammar.  Of the
language these parts are read: block and flow collections, scalars in quotes and plain scalars,
comments, and document markers.

* `Token.ofText?` — the tokens of a text.
-/

namespace AclPlane.Yaml

/-- The tokens of a text. -/
inductive Token where
  | documentStart | documentEnd
  | blockSequenceStart | blockMappingStart | blockEnd
  | flowSequenceStart | flowSequenceEnd
  | flowMappingStart | flowMappingEnd
  | blockEntry | flowEntry
  | key | value
  /-- A scalar; the flag tells whether it stands without quotes. -/
  | scalar (plain : Bool) (text : String)
  deriving Repr, DecidableEq

/-- A place where a key may have begun, to be known as one when a colon follows. -/
structure KeyCandidate where
  /-- How many tokens stand before it. -/
  position : Nat
  start : Cursor
  /-- Whether only a key can stand there. -/
  required : Bool
  deriving Repr

/-- What is known of a text after a part of it has been read. -/
structure Scan where
  here : Cursor
  /-- The columns of the open block collections, the innermost first. -/
  indents : List Nat
  /-- The candidate on the innermost level of flow collections. -/
  candidate : Option KeyCandidate
  /-- The candidates on the outer levels, the innermost first. -/
  outer : List (Option KeyCandidate)
  /-- Whether a key may begin here. -/
  keyAllowed : Bool
  tokens : Array Token
  deriving Repr

namespace Scan

/-- The state before a text. -/
def start (text : String) : Scan :=
  { here := Cursor.start text, indents := [], candidate := none, outer := [], keyAllowed := true
    tokens := #[] }

/-- Whether a flow collection is open. -/
def inFlow (s : Scan) : Bool := !s.outer.isEmpty

/-- The state with a token more. -/
def push (s : Scan) (t : Token) : Scan := { s with tokens := s.tokens.push t }

/-- The state with a token of the given width read. -/
def take (s : Scan) (width : Nat) (t : Token) : Scan :=
  { s with here := s.here.skip width, tokens := s.tokens.push t }

/-! ### Indentation -/

/-- Closes the block collections that stand right of a column, or all. -/
def closeBlocks (s : Scan) (column : Option Nat) : Scan :=
  if s.inFlow then s
  else
    let (closed, indents) := s.indents.span (fun i => column.all (· < i))
    { s with indents, tokens := s.tokens ++ closed.map (fun _ => Token.blockEnd) }

/-- Opens a block collection at a column, if it stands right of the open ones.  Its token goes
to a position among the tokens. -/
def openBlock (s : Scan) (column position : Nat) (t : Token) : Scan :=
  if s.inFlow || s.indents.head?.any (column ≤ ·) then s
  else
    { s with
      indents := column :: s.indents
      tokens := s.tokens.extract 0 position ++ #[t] ++ s.tokens.extract position }

/-! ### Candidates for keys -/

/-- A candidate, once the text has been read as far as a position.  A key stays on one line and
within 1024 bytes. -/
def stillCandidate? (here : Cursor) : Option KeyCandidate → Option (Option KeyCandidate)
  | none => some none
  | some k =>
    if k.start.line < here.line || k.start.index + 1024 < here.index then
      if k.required then none else some none
    else some (some k)

/-- Gives up the candidates that can no longer be keys; none of them may be required. -/
def dropStale? (s : Scan) : Option Scan := do
  let candidate ← stillCandidate? s.here s.candidate
  let outer ← s.outer.mapM (stillCandidate? s.here)
  return { s with candidate, outer }

/-- Gives up the candidate of this level, which may not be required. -/
def dropCandidate? (s : Scan) : Option Scan :=
  if s.candidate.any KeyCandidate.required then none else some { s with candidate := none }

/-- Makes a candidate of what begins here, where a key may begin. -/
def addCandidate? (s : Scan) : Option Scan :=
  if !s.keyAllowed then some s
  else do
    let s ← s.dropCandidate?
    let required := !s.inFlow && s.indents.head? == some s.here.column
    return { s with candidate := some ⟨s.tokens.size, s.here, required⟩ }

/-! ### Single tokens -/

/-- Passes over blanks, comments and line breaks.  A new line allows keys again, and tabs are
passed over only where no key of a block may begin.  A byte-order mark at the start of a line is
passed over too, and takes up a column. -/
def skipBlanks : Nat → Scan → Scan
  | 0, s => s
  | fuel + 1, s =>
    match s.here.rest with
    | [] => s
    | c :: _ =>
      if c == ' ' || (c == '\t' && (s.inFlow || !s.keyAllowed)) || s.here.atByteOrderMark then
        skipBlanks fuel { s with here := s.here.next }
      else if c == '#' then
        let comment := s.here.rest.takeWhile (fun c => !isBreak c)
        skipBlanks fuel { s with here := s.here.skip comment.length }
      else if isBreak c then
        skipBlanks fuel { s with here := s.here.nextLine, keyAllowed := s.keyAllowed || !s.inFlow }
      else s

/-- A marker between documents. -/
def documentMarker? (s : Scan) (t : Token) : Option Scan := do
  let s ← (s.closeBlocks none).dropCandidate?
  return { s with keyAllowed := false }.take 3 t

/-- The start of a flow collection. -/
def openFlow? (s : Scan) (t : Token) : Option Scan := do
  let s ← s.addCandidate?
  return { s with outer := s.candidate :: s.outer, candidate := none, keyAllowed := true }.take 1 t

/-- The end of a flow collection. -/
def closeFlow? (s : Scan) (t : Token) : Option Scan := do
  let s ← s.dropCandidate?
  let s := match s.outer with
    | candidate :: outer => { s with candidate, outer }
    | [] => s
  return { s with keyAllowed := false }.take 1 t

/-- The comma of a flow collection. -/
def flowEntry? (s : Scan) : Option Scan := do
  let s ← s.dropCandidate?
  return { s with keyAllowed := true }.take 1 .flowEntry

/-- Opens a block collection here for an indicator, which has to stand where a key may begin. -/
def openBlockHere? (s : Scan) (t : Token) : Option Scan :=
  if s.inFlow then some s
  else if s.keyAllowed then some (s.openBlock s.here.column s.tokens.size t)
  else none

/-- The dash of a block sequence. -/
def blockEntry? (s : Scan) : Option Scan := do
  let s ← s.openBlockHere? .blockSequenceStart
  let s ← s.dropCandidate?
  return { s with keyAllowed := true }.take 1 .blockEntry

/-- The mark of a key. -/
def key? (s : Scan) : Option Scan := do
  let s ← s.openBlockHere? .blockMappingStart
  let s ← s.dropCandidate?
  return { s with keyAllowed := !s.inFlow }.take 1 .key

/-- The colon before a value.  It makes a key of the candidate, if there is one. -/
def value? (s : Scan) : Option Scan :=
  match s.candidate with
  | some k =>
    let tokens := s.tokens.extract 0 k.position ++ #[Token.key] ++ s.tokens.extract k.position
    let s := { s with tokens }.openBlock k.start.column k.position .blockMappingStart
    some ({ s with candidate := none, keyAllowed := false }.take 1 .value)
  | none => do
    let s ← s.openBlockHere? .blockMappingStart
    return { s with keyAllowed := !s.inFlow }.take 1 .value

/-- A scalar in quotes. -/
def quotedScalar? (s : Scan) (double : Bool) : Option Scan := do
  let s ← s.addCandidate?
  let (here, text) ← quoted? double (s.here.rest.length + 1) s.here.next []
  return { s with here, keyAllowed := false }.push (.scalar false (String.ofList text))

/-- A plain scalar.  One that ends behind a line break allows keys again. -/
def plainScalar? (s : Scan) : Option Scan := do
  let s ← s.addCandidate?
  let indent := (s.indents.head?.map (· + 1)).getD 0
  let (here, text, broken) ←
    plain? s.inFlow indent (s.here.rest.length + 1) s.here [] Gap.none
  return { s with here, keyAllowed := broken }.push (.scalar true (String.ofList text))

/-- Whether a plain scalar may begin with a character. -/
def startsPlain (flow : Bool) (c : Char) (rest : List Char) : Bool :=
  if c == '-' then !rest.head?.any isBlank
  else if c == '?' || c == ':' then !flow && !startsBlank rest
  else !(isBlank c || isFlowIndicator c || "#&*!|>'\"%@\x60".contains c)

/-- Reads the next token, of a text that does not end here. -/
def token? (s : Scan) (c : Char) (rest : List Char) : Option Scan :=
  if s.here.atMarker '-' then s.documentMarker? .documentStart
  else if s.here.atMarker '.' then s.documentMarker? .documentEnd
  else if c == '[' then s.openFlow? .flowSequenceStart
  else if c == '{' then s.openFlow? .flowMappingStart
  else if c == ']' then s.closeFlow? .flowSequenceEnd
  else if c == '}' then s.closeFlow? .flowMappingEnd
  else if c == ',' then s.flowEntry?
  else if c == '-' && startsBlank rest then s.blockEntry?
  else if c == '?' && (s.inFlow || startsBlank rest) then s.key?
  else if c == ':' && (s.inFlow || startsBlank rest) then s.value?
  else if c == '\'' then s.quotedScalar? false
  else if c == '"' then s.quotedScalar? true
  else if startsPlain s.inFlow c rest then s.plainScalar?
  else none

/-- Reads all tokens. -/
def tokens? : Nat → Scan → Option (Array Token)
  | 0, _ => none
  | fuel + 1, s => do
    let s := s.skipBlanks (s.here.rest.length + 1)
    let s ← s.dropStale?
    let s := s.closeBlocks (some s.here.column)
    match s.here.rest with
    | [] =>
      let s ← (s.closeBlocks none).dropCandidate?
      return s.tokens
    | c :: rest => tokens? fuel (← s.token? c rest)

end Scan

/-- The tokens of a text. -/
def Token.ofText? (text : String) : Option (List Token) :=
  if text.toList.all isPrintable then
    (Scan.tokens? (text.length + 1) (Scan.start text)).map Array.toList
  else none

end AclPlane.Yaml
