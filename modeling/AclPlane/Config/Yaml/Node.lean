import AclPlane.Config.Yaml.Token

/-!
Nodes of a YAML text: scalars, sequences and mappings.

* `Node.ofTokens?` — the node that the tokens of a single document spell.
* `Node.ofText?` — the node of a text.
-/

namespace AclPlane.Yaml

/-- The nodes of a document. -/
inductive Node where
  /-- A scalar; the flag tells whether it stands without quotes. -/
  | scalar (plain : Bool) (text : String)
  | sequence (items : List Node)
  | mapping (entries : List (Node × Node))
  deriving Repr

namespace Node

/-- What stands where nothing is written. -/
def empty : Node := .scalar true ""

/-! ### Tokens that leave a node out -/

/-- Whether an entry of a block sequence is left out before a token. -/
def endsEntry : Token → Bool
  | .blockEntry | .blockEnd => true
  | _ => false

/-- Whether a key or a value of a block mapping is left out before a token. -/
def endsBlockPart : Token → Bool
  | .key | .value | .blockEnd => true
  | _ => false

/-- Whether an entry of a sequence without indentation is left out before a token. -/
def endsBareEntry : Token → Bool
  | .blockEntry | .key | .value | .blockEnd => true
  | _ => false

/-- Whether a value of a flow collection that `close` ends is left out before a token. -/
def endsFlowValue (close t : Token) : Bool := t == .flowEntry || t == close

/-- Whether a key of a flow collection that `close` ends is left out before a token. -/
def endsFlowKey (close t : Token) : Bool := t == .value || endsFlowValue close t

/-- What stands between the entries of a flow collection: a comma, except before the first and
after the last. -/
def flowComma? (first : Bool) (close : Token) : List Token → Option (List Token)
  | .flowEntry :: ts => if first then some (.flowEntry :: ts) else some ts
  | t :: ts => if first || t == close then some (t :: ts) else none
  | [] => none

/-! ### The grammar -/

mutual

/-- Reads a node.  Block collections stand only in `block` context, and a sequence without
indentation of its own only as a part of a block mapping. -/
def node? (block bare : Bool) : Nat → List Token → Option (Node × List Token)
  | 0, _ => none
  | fuel + 1, ts =>
    match ts with
    | .blockEntry :: _ =>
      if bare then (bareItems? fuel ts).map (fun r => (.sequence r.1, r.2)) else none
    | .scalar plain text :: ts => some (.scalar plain text, ts)
    | .flowSequenceStart :: ts =>
      (flowItems? true fuel ts).map (fun r => (.sequence r.1, r.2))
    | .flowMappingStart :: ts =>
      (flowEntries? true fuel ts).map (fun r => (.mapping r.1, r.2))
    | .blockSequenceStart :: ts =>
      if block then (blockItems? fuel ts).map (fun r => (.sequence r.1, r.2)) else none
    | .blockMappingStart :: ts =>
      if block then (blockEntries? fuel ts).map (fun r => (.mapping r.1, r.2)) else none
    | _ => none

/-- Reads a node, unless it is left out before a token that `ends` it. -/
def part? (block bare : Bool) (ends : Token → Bool) :
    Nat → List Token → Option (Node × List Token)
  | 0, _ => none
  | fuel + 1, ts =>
    match ts with
    | [] => none
    | t :: _ => if ends t then some (empty, ts) else node? block bare fuel ts

/-- Reads the entries of a block sequence and its end. -/
def blockItems? : Nat → List Token → Option (List Node × List Token)
  | 0, _ => none
  | fuel + 1, ts =>
    match ts with
    | .blockEnd :: ts => some ([], ts)
    | .blockEntry :: ts => do
      let (item, ts) ← part? true false endsEntry fuel ts
      let (items, ts) ← blockItems? fuel ts
      return (item :: items, ts)
    | _ => none

/-- Reads the entries of a sequence without indentation. -/
def bareItems? : Nat → List Token → Option (List Node × List Token)
  | 0, _ => none
  | fuel + 1, ts =>
    match ts with
    | .blockEntry :: ts => do
      let (item, ts) ← part? true false endsBareEntry fuel ts
      let (items, ts) ← bareItems? fuel ts
      return (item :: items, ts)
    | ts => some ([], ts)

/-- Reads the entries of a block mapping and its end. -/
def blockEntries? : Nat → List Token → Option (List (Node × Node) × List Token)
  | 0, _ => none
  | fuel + 1, ts =>
    match ts with
    | .blockEnd :: ts => some ([], ts)
    | .key :: ts => do
      let (key, ts) ← part? true true endsBlockPart fuel ts
      let (value, ts) ← match ts with
        | .value :: ts => part? true true endsBlockPart fuel ts
        | ts => some (empty, ts)
      let (entries, ts) ← blockEntries? fuel ts
      return ((key, value) :: entries, ts)
    | _ => none

/-- Reads the entries of a flow sequence and its end.  An entry with a key is a mapping of its
own; where the key is left out, the token after its mark goes with it. -/
def flowItems? (first : Bool) : Nat → List Token → Option (List Node × List Token)
  | 0, _ => none
  | fuel + 1, ts => do
    match ← flowComma? first .flowSequenceEnd ts with
    | .flowSequenceEnd :: ts => some ([], ts)
    | .key :: ts =>
      let (key, ts) ← match ts with
        | [] => none
        | t :: rest =>
          if endsFlowKey .flowSequenceEnd t then some (empty, rest) else node? false false fuel ts
      let (value, ts) ← match ts with
        | .value :: ts => part? false false (endsFlowValue .flowSequenceEnd) fuel ts
        | ts => some (empty, ts)
      let (items, ts) ← flowItems? false fuel ts
      return (.mapping [(key, value)] :: items, ts)
    | ts =>
      let (item, ts) ← node? false false fuel ts
      let (items, ts) ← flowItems? false fuel ts
      return (item :: items, ts)

/-- Reads the entries of a flow mapping and its end.  An entry without a key mark has no value. -/
def flowEntries? (first : Bool) : Nat → List Token → Option (List (Node × Node) × List Token)
  | 0, _ => none
  | fuel + 1, ts => do
    match ← flowComma? first .flowMappingEnd ts with
    | .flowMappingEnd :: ts => some ([], ts)
    | .key :: ts =>
      let (key, ts) ← part? false false (endsFlowKey .flowMappingEnd) fuel ts
      let (value, ts) ← match ts with
        | .value :: ts => part? false false (endsFlowValue .flowMappingEnd) fuel ts
        | ts => some (empty, ts)
      let (entries, ts) ← flowEntries? false fuel ts
      return ((key, value) :: entries, ts)
    | ts =>
      let (key, ts) ← node? false false fuel ts
      let (entries, ts) ← flowEntries? false fuel ts
      return ((key, empty) :: entries, ts)

end

/-! ### Documents -/

/-- Reads the content of a document that a marker begins. -/
def content? (fuel : Nat) (ts : List Token) : Option (Node × List Token) :=
  match ts with
  | [] | .documentStart :: _ | .documentEnd :: _ => some (empty, ts)
  | _ => node? true false fuel ts

/-- The node of tokens that hold one document at most.  Without a document, or with nothing in
it, the node is empty. -/
def ofTokens? (ts : List Token) : Option Node := do
  let fuel := 3 * ts.length + 3
  let (node, rest) ← match ts with
    | [] => some (empty, [])
    | .documentStart :: ts => content? fuel ts
    | ts => node? true false fuel ts
  if rest.all (· == .documentEnd) then some node else none

/-- The node of a text. -/
def ofText? (text : String) : Option Node := (Token.ofText? text).bind ofTokens?

end Node

end AclPlane.Yaml
