import AclPlane.Text.Uppercase

/-!
The access commands of the resource-management interface, and their spellings.
-/

namespace AclPlane

/-- A command of the resource-management interface. -/
inductive AccessCommand where
  | create | destroy | edit | set | add | delete | deleteAll
  | bind | unbind | get | getFirst | getNext | read | readClear
  deriving DecidableEq, Repr

namespace AccessCommand

/-- Every command. -/
def all : List AccessCommand :=
  [create, destroy, edit, set, add, delete, deleteAll, bind, unbind, get, getFirst, getNext,
   read, readClear]

/-- The spelling of a command. -/
def name : AccessCommand → String
  | create => "CREATE"
  | destroy => "DESTROY"
  | edit => "EDIT"
  | set => "SET"
  | add => "ADD"
  | delete => "DELETE"
  | deleteAll => "DELETE_ALL"
  | bind => "BIND"
  | unbind => "UNBIND"
  | get => "GET"
  | getFirst => "GET_FIRST"
  | getNext => "GETNEXT"
  | read => "READ"
  | readClear => "READ_CLEAR"

/-- Further spellings that are read, but never written. -/
def aliases : List (String × AccessCommand) := [("GET_NEXT", getNext)]

/-- Reads a command in any case. -/
def parse? (s : String) : Option AccessCommand :=
  (upper? s).bind (fun upper => (aliases.lookup upper).or (all.find? (fun c => c.name == upper)))

end AccessCommand

/-- A name that is not in the vocabulary it was read in. -/
inductive NameError where
  | basicKey (text : String)
  | accessCommand (text : String)
  deriving DecidableEq, Repr

/-- The error in words, quoting the text as it was given. -/
def NameError.message : NameError → String
  | basicKey text => "Unknown basic key: " ++ text
  | accessCommand text => "Unknown access command: " ++ text

end AclPlane
