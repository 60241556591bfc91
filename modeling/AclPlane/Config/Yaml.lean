import AclPlane.Config.Document
import AclPlane.Config.Yaml.Node

/-!
Documents in YAML.

A plain scalar is an integer if it is written in decimal digits without leading zeros, or in
digits of another base behind `0x`, `0o` or `0b`; a plus sign may stand in front.  A minus sign
may not, not even in front of zero.  Scalars in quotes are never integers.

* `Yaml.integer?` — the integer that a plain scalar spells.
* `Yaml.document?` — the document of a text.
-/

namespace AclPlane.Yaml

/-! ### Integers -/

/-- The number that digits of a base spell. -/
def digits? (base : Nat) (cs : List Char) : Option Nat := do
  if cs.isEmpty then none
  let digits ← cs.mapM hexDigit?
  if digits.all (· < base) then some (digits.foldl (fun n d => n * base + d) 0) else none

/-- The integer without sign that a text spells. -/
def natural? : List Char → Option Nat
  | '0' :: 'x' :: cs => digits? 16 cs
  | '0' :: 'o' :: cs => digits? 8 cs
  | '0' :: 'b' :: cs => digits? 2 cs
  | '0' :: _ :: _ => none
  | cs => digits? 10 cs

/-- The integer that a text spells with or without a plus sign. -/
def integer? : List Char → Option Nat
  | '+' :: cs => natural? cs
  | cs => natural? cs

/-! ### Documents -/

namespace Node

/-- The name that a key gives: only scalars give one. -/
def name? : Node → Option String
  | scalar _ text => some text
  | _ => none

mutual

/-- The document that a node describes. -/
def document : Node → Document
  | scalar false _ => .other
  | scalar true text =>
    if text.isEmpty then .blank
    else match integer? text.toList with
      | some n => .number n
      | none => .other
  | sequence items => .list (documents items)
  | mapping entries => .record (namedDocuments entries)

/-- The documents that the items of a sequence describe. -/
def documents : List Node → List Document
  | [] => []
  | item :: items => item.document :: documents items

/-- The named documents that the entries of a mapping describe. -/
def namedDocuments : List (Node × Node) → List (Option String × Document)
  | [] => []
  | (key, value) :: entries => (key.name?, value.document) :: namedDocuments entries

end

end Node

/-- The document of a text. -/
def document? (text : String) : Option Document := (Node.ofText? text).map Node.document

end AclPlane.Yaml
