/-!
Reading positions in a YAML text, and its blanks and line breaks.
-/

namespace AclPlane.Yaml

/-! ### Characters -/

/-- The characters that a text may hold. -/
def isPrintable (c : Char) : Bool :=
  c == '\t' || c == '\n' || c == '\r' || (' ' ≤ c && c ≤ '~') || c == '\x85' ||
    ('\xa0' ≤ c && c ≤ '\ufffd') || 0x10000 ≤ c.toNat

/-- Line breaks. -/
def isBreak (c : Char) : Bool :=
  c == '\n' || c == '\r' || c == '\x85' || c == '\u2028' || c == '\u2029'

/-- Blanks within a line. -/
def isBlank (c : Char) : Bool := c == ' ' || c == '\t'

/-- Whether a text begins with a blank or a line break, or is at its end. -/
def startsBlank : List Char → Bool
  | [] => true
  | c :: _ => isBlank c || isBreak c

/-! ### Positions -/

/-- A position: what is left of the text, and where it is. -/
structure Cursor where
  rest : List Char
  /-- The bytes of UTF-8 before the position. -/
  index : Nat
  line : Nat
  /-- The characters of the line before the position. -/
  column : Nat
  deriving Repr

/-- The length of a text in bytes of UTF-8. -/
def byteLength (cs : List Char) : Nat := cs.foldl (fun n c => n + c.utf8Size) 0

namespace Cursor

/-- The start of a text. -/
def start (text : String) : Cursor := ⟨text.toList, 0, 0, 0⟩

/-- The position after several characters of the line. -/
def skip (c : Cursor) (n : Nat) : Cursor :=
  ⟨c.rest.drop n, c.index + byteLength (c.rest.take n), c.line, c.column + n⟩

/-- The position after one character of the line. -/
def next (c : Cursor) : Cursor := c.skip 1

/-- The position after a line break. -/
def nextLine (c : Cursor) : Cursor :=
  let width := match c.rest with
    | '\r' :: '\n' :: _ => 2
    | _ => 1
  ⟨c.rest.drop width, c.index + byteLength (c.rest.take width), c.line + 1, 0⟩

/-- Whether a line begins here with a byte-order mark. -/
def atByteOrderMark (c : Cursor) : Bool := c.column == 0 && c.rest.head? == some '\ufeff'

/-- The line break at a position, as scalars take it. -/
def breakText (c : Cursor) : List Char :=
  match c.rest with
  | '\u2028' :: _ => ['\u2028']
  | '\u2029' :: _ => ['\u2029']
  | _ => ['\n']

/-- Whether a line begins here with three of the given character and then a blank. -/
def atMarker (c : Cursor) (mark : Char) : Bool :=
  c.column == 0 &&
    match c.rest with
    | a :: b :: d :: rest => a == mark && b == mark && d == mark && startsBlank rest
    | _ => false

/-- Whether a document marker begins here. -/
def atDocumentMarker (c : Cursor) : Bool := c.atMarker '-' || c.atMarker '.'

end Cursor

/-! ### Folding of lines -/

/-- The blanks and line breaks between two parts of a scalar. -/
structure Gap where
  blanks : List Char
  /-- The first line break, once there is one. -/
  firstBreak : Option (List Char)
  /-- The line breaks after the first. -/
  furtherBreaks : List Char
  deriving Repr

namespace Gap

/-- No blanks and no line breaks. -/
def none : Gap := ⟨[], Option.none, []⟩

/-- What a gap contributes to a scalar: its blanks if it stays on one line; one blank for a
single line break; all but the first of several. -/
def text (g : Gap) : List Char :=
  match g.firstBreak with
  | Option.none => g.blanks
  | some ['\n'] => if g.furtherBreaks.isEmpty then [' '] else g.furtherBreaks
  | some first => first ++ g.furtherBreaks

/-- The gap with the line break at a position behind it. -/
def addBreak (g : Gap) (c : Cursor) : Gap :=
  match g.firstBreak with
  | Option.none => ⟨[], some c.breakText, []⟩
  | some first => ⟨[], some first, g.furtherBreaks ++ c.breakText⟩

/-- The gap with a blank behind it; blanks at the start of a line do not count. -/
def addBlank (g : Gap) (blank : Char) : Gap :=
  match g.firstBreak with
  | Option.none => { g with blanks := g.blanks ++ [blank] }
  | some _ => g

/-- Reads blanks and line breaks.  At the start of a line, no tab may stand left of `indent`. -/
def read? (indent : Nat) : Nat → Cursor → Gap → Option (Cursor × Gap)
  | 0, _, _ => Option.none
  | fuel + 1, c, g =>
    match c.rest with
    | ch :: _ =>
      if isBlank ch then
        if ch == '\t' && g.firstBreak.isSome && c.column < indent then Option.none
        else read? indent fuel c.next (g.addBlank ch)
      else if isBreak ch then read? indent fuel c.nextLine (g.addBreak c)
      else some (c, g)
    | [] => some (c, g)

end Gap

end AclPlane.Yaml
