import AclPlane.Config.Json
import AclPlane.Config.Yaml

/-!
Loading of configurations.

* `Config.load` — the configuration that a text in a format describes, which has to be valid.
* `ConfigFormat.ofFileName` — the format that the name of a file stands for.
-/

namespace AclPlane

/-- The formats of configurations. -/
inductive ConfigFormat where
  | json | yaml
  deriving Repr, DecidableEq

namespace ConfigFormat

/-- The extension of a file's name: what follows the last dot, unless the name begins with it. -/
def extension? (name : String) : Option String :=
  let reversed := name.toList.reverse
  match reversed.dropWhile (· != '.') with
  | [] | ['.'] => none
  | _ => some (String.ofList (reversed.takeWhile (· != '.')).reverse)

/-- The format of a file: JSON if its name ends so, and else YAML. -/
def ofFileName (name : String) : ConfigFormat :=
  if extension? name == some "json" then json else yaml

/-- The document of a text. -/
def document? : ConfigFormat → String → Option Document
  | json => Json.document?
  | yaml => Yaml.document?

/-- Whether a record may be written as the list of its values. -/
def positional : ConfigFormat → Bool
  | json => true
  | yaml => false

end ConfigFormat

/-- Why no configuration was loaded. -/
inductive LoadError where
  /-- There is no file to read. -/
  | unreadable
  /-- The text does not describe a configuration in the format. -/
  | malformed (format : ConfigFormat)
  | invalid (cause : ConfigError)
  deriving Repr

/-- The valid configuration that a text describes. -/
def Config.load (format : ConfigFormat) (text : String) : Except LoadError Config :=
  match (format.document? text).bind (Config.ofDocument? format.positional) with
  | none => .error (.malformed format)
  | some config =>
    match config.check with
    | .error cause => .error (.invalid cause)
    | .ok () => .ok config

/-- The valid configuration of a file with the given name and text; without a text there is no
such file. -/
def Config.loadFile (name : String) (text : Option String) : Except LoadError Config :=
  match text with
  | none => .error .unreadable
  | some text => Config.load (ConfigFormat.ofFileName name) text

end AclPlane
