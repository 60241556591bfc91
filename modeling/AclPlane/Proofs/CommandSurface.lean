import AclPlane.Operation
import Mathlib.Tactic

/-!
The decoding of commands, for each of the nine types of operation.

* `Surface`: a type of operation with its records of parameters, next to what the decoding is
  held against: the commands that the operations have, the record that an operation is written
  as, the parameters that a command uses, and which records do not give it what it needs.
* `Surface.Exact`: the decoding is exact.  It undoes the writing of operations as commands, what
  no operation has as its command is unsupported, and what a record lacks is the only reason to
  refuse any other command; parameters that a command does not use make no difference.
* `Surface.Decoded`: the three answers that a command can get; a surface on which every command
  gets one of them is exact (`Surface.exact_of_decoded`).
* `KeyTypeOp.decoded` to `ObjectQuery.decoded`: so does every command on the nine surfaces, and
  `decoding_exact`: they are exact.
-/

namespace AclPlane

/-! ### Surfaces -/

/-- A type of operation, the records that commands on it carry, and what decoding them is to
do. -/
structure Surface (Op Params : Type) where
  resource : Resource
  command : Op → AccessCommand
  ofCommand : AccessCommand → Params → Except AclError Op
  /-- The commands that mean something for the resource. -/
  commands : List AccessCommand
  /-- The parameters of an operation, with every other one left at its default. -/
  params : Op → Params
  /-- The parameters that a command uses, with every other one reset to its default. -/
  used : AccessCommand → Params → Params
  /-- A parameter that the command needs is missing, or contradicts it. -/
  Lacking : AccessCommand → Params → Prop

namespace Surface

variable {Op Params : Type}

/-- The decoding of a surface is exact. -/
structure Exact (S : Surface Op Params) : Prop where
  /-- A decoded operation has the command it was decoded from. -/
  command_eq : ∀ cmd p op, S.ofCommand cmd p = .ok op → S.command op = cmd
  /-- Every operation is decoded from its command and parameters. -/
  ofCommand_params : ∀ op, S.ofCommand (S.command op) (S.params op) = .ok op
  /-- A command is decoded to an operation exactly if it is the command of the operation and
  uses the parameters of the operation. -/
  ok_iff : ∀ cmd p op,
    S.ofCommand cmd p = .ok op ↔ S.command op = cmd ∧ S.used cmd p = S.params op
  /-- A command is unsupported exactly if no operation has it, whatever the parameters. -/
  unsupported_iff : ∀ cmd p,
    (∃ c r, S.ofCommand cmd p = .error (.unsupported c r)) ↔ ∀ op, S.command op ≠ cmd
  /-- The error names the command and the resource. -/
  unsupported_eq : ∀ cmd p, (∀ op, S.command op ≠ cmd) →
    S.ofCommand cmd p = .error (.unsupported cmd S.resource)
  /-- A command that means something is refused for its parameters only. -/
  invalidParam_of_error : ∀ cmd p e, (∃ op, S.command op = cmd) → S.ofCommand cmd p = .error e →
    ∃ why, e = .invalidParam why
  /-- It is refused exactly if a parameter that it needs is missing or contradicts it. -/
  invalidParam_iff : ∀ cmd p, (∃ op, S.command op = cmd) →
    ((∃ why, S.ofCommand cmd p = .error (.invalidParam why)) ↔ S.Lacking cmd p)
  /-- Parameters that the command does not use are irrelevant. -/
  irrelevant : ∀ cmd p q, S.used cmd p = S.used cmd q → S.ofCommand cmd p = S.ofCommand cmd q

/-- The answer to a command with a record of parameters. -/
inductive Decoded (S : Surface Op Params) (cmd : AccessCommand) (p : Params) : Prop
  /-- The command means nothing for the resource. -/
  | unsupported (alien : cmd ∉ S.commands)
      (answer : S.ofCommand cmd p = .error (.unsupported cmd S.resource))
  /-- The record does not give the command what it needs. -/
  | refused (meant : cmd ∈ S.commands) (lacking : S.Lacking cmd p) (why : BadParameter)
      (answer : S.ofCommand cmd p = .error (.invalidParam why))
  /-- The record gives the parameters of an operation. -/
  | read (meant : cmd ∈ S.commands) (complete : ¬S.Lacking cmd p) (op : Op)
      (answer : S.ofCommand cmd p = .ok op) (command : S.command op = cmd)
      (params : S.used cmd p = S.params op)

/-- A decoded operation has the command and the parameters that it was decoded from. -/
lemma Decoded.of_ok {S : Surface Op Params} {cmd : AccessCommand} {p : Params} {op : Op}
    (h : S.Decoded cmd p) (hop : S.ofCommand cmd p = .ok op) :
    cmd ∈ S.commands ∧ S.command op = cmd ∧ S.used cmd p = S.params op := by
  cases h with
  | unsupported _ answer => cases answer.symm.trans hop
  | refused _ _ _ answer => cases answer.symm.trans hop
  | read meant _ op' answer command params =>
      cases answer.symm.trans hop
      exact ⟨meant, command, params⟩

/-- Decoding is exact if every command is answered in one of the three ways, if the commands of
the table have operations, if operations are read back from their records, and if what a command
does not use changes nothing. -/
theorem exact_of_decoded {S : Surface Op Params} (hdec : ∀ cmd p, S.Decoded cmd p)
    (hsome : ∀ cmd ∈ S.commands, ∃ op, S.command op = cmd)
    (hback : ∀ op, S.ofCommand (S.command op) (S.params op) = .ok op)
    (hused : ∀ cmd p, S.ofCommand cmd (S.used cmd p) = S.ofCommand cmd p) : S.Exact := by
  have hmeant : ∀ cmd, cmd ∈ S.commands ↔ ∃ op, S.command op = cmd := by
    refine fun cmd => ⟨hsome cmd, ?_⟩
    rintro ⟨op, rfl⟩
    exact ((hdec _ _).of_ok (hback op)).1
  have halien : ∀ cmd, cmd ∉ S.commands ↔ ∀ op, S.command op ≠ cmd := by
    intro cmd
    rw [hmeant, not_exists]
  refine ⟨fun cmd p op hop => ((hdec cmd p).of_ok hop).2.1, hback, ?_, ?_, ?_, ?_, ?_, ?_⟩
  · -- A command with the parameters of an operation is read as the record of the operation is.
    refine fun cmd p op => ⟨fun hop => ((hdec cmd p).of_ok hop).2, ?_⟩
    rintro ⟨rfl, hp⟩
    rw [← hused, hp, hback]
  · intro cmd p
    rw [← halien]
    cases hdec cmd p with
    | unsupported alien answer => exact iff_of_true ⟨_, _, answer⟩ alien
    | refused meant _ _ answer => simp [answer, meant]
    | read meant _ _ answer => simp [answer, meant]
  · intro cmd p h
    cases hdec cmd p with
    | unsupported _ answer => exact answer
    | refused meant => exact absurd meant ((halien cmd).mpr h)
    | read meant => exact absurd meant ((halien cmd).mpr h)
  · intro cmd p e hop herr
    cases hdec cmd p with
    | unsupported alien => exact absurd ((hmeant cmd).mpr hop) alien
    | refused _ _ why answer =>
        cases answer.symm.trans herr
        exact ⟨why, rfl⟩
    | read _ _ _ answer => cases answer.symm.trans herr
  · intro cmd p hop
    cases hdec cmd p with
    | unsupported alien => exact absurd ((hmeant cmd).mpr hop) alien
    | refused _ lacking why answer => exact iff_of_true ⟨why, answer⟩ lacking
    | read _ complete _ answer => simp [answer, complete]
  · intro cmd p q hpq
    rw [← hused cmd p, hpq, hused]

end Surface

/-- Some handle; the decoding does not look into it. -/
instance instInhabitedHandle {kind : ObjectKind} : Inhabited (Handle kind) := ⟨⟨0, 1⟩⟩

/-! ### Key types -/

namespace KeyTypeOp

/-- The record of an operation. -/
def params : KeyTypeOp → KeyTypeParams
  | create fields hint => ⟨none, fields, hint⟩
  | destroy id => ⟨some id, [], none⟩

/-- The parameters that a command uses. -/
def used (cmd : AccessCommand) (p : KeyTypeParams) : KeyTypeParams :=
  match cmd with
  | .create => ⟨none, p.fields, p.hint⟩
  | .destroy => ⟨p.id, [], none⟩
  | _ => ⟨none, [], none⟩

/-- The command does not get what it needs. -/
def Lacking (cmd : AccessCommand) (p : KeyTypeParams) : Prop :=
  match cmd with
  | .destroy => p.id = none
  | _ => False

/-- Commands on key types. -/
def surface : Surface KeyTypeOp KeyTypeParams where
  resource := .keyType
  command := command
  ofCommand := ofCommand
  commands := [.create, .destroy]
  params := params
  used := used
  Lacking := Lacking

lemma exists_command : ∀ cmd ∈ surface.commands, ∃ op, surface.command op = cmd := by
  simp only [surface, List.forall_mem_cons]
  exact ⟨⟨create [] none, rfl⟩, ⟨destroy default, rfl⟩, List.forall_mem_nil _⟩

lemma decoded (cmd : AccessCommand) (p : KeyTypeParams) : surface.Decoded cmd p := by
  obtain ⟨id, fields, hint⟩ := p
  cases cmd with
  | create =>
      exact .read (by decide) not_false (create fields hint) rfl rfl rfl
  | destroy =>
      rcases id with _ | id
      · exact .refused (by decide) rfl _ rfl
      exact .read (by decide) (by simp [surface, Lacking]) (destroy id) rfl rfl rfl
  | _ => exact .unsupported (by decide) rfl

lemma surface_exact : surface.Exact :=
  Surface.exact_of_decoded decoded exists_command (fun op => by cases op <;> rfl)
    (fun cmd p => by cases cmd <;> rfl)

end KeyTypeOp

/-! ### Regions -/

namespace RegionOp

/-- The record of an operation. -/
def params : RegionOp → RegionParams
  | create keyType capacity => ⟨none, some keyType, some capacity⟩
  | resize region capacity => ⟨some region, none, some capacity⟩
  | destroy region => ⟨some region, none, none⟩

/-- The parameters that a command uses. -/
def used (cmd : AccessCommand) (p : RegionParams) : RegionParams :=
  match cmd with
  | .create => ⟨none, p.keyType, p.capacity⟩
  | .edit => ⟨p.region, none, p.capacity⟩
  | .destroy => ⟨p.region, none, none⟩
  | _ => ⟨none, none, none⟩

/-- The command does not get what it needs. -/
def Lacking (cmd : AccessCommand) (p : RegionParams) : Prop :=
  match cmd with
  | .create => p.keyType = none ∨ p.capacity = none
  | .edit => p.region = none ∨ p.capacity = none
  | .destroy => p.region = none
  | _ => False

/-- Commands on regions. -/
def surface : Surface RegionOp RegionParams where
  resource := .region
  command := command
  ofCommand := ofCommand
  commands := [.create, .edit, .destroy]
  params := params
  used := used
  Lacking := Lacking

lemma exists_command : ∀ cmd ∈ surface.commands, ∃ op, surface.command op = cmd := by
  simp only [surface, List.forall_mem_cons]
  exact ⟨⟨create default 0, rfl⟩, ⟨resize default 0, rfl⟩, ⟨destroy default, rfl⟩,
    List.forall_mem_nil _⟩

lemma decoded (cmd : AccessCommand) (p : RegionParams) : surface.Decoded cmd p := by
  obtain ⟨region, keyType, capacity⟩ := p
  cases cmd with
  | create =>
      rcases keyType with _ | keyType
      · exact .refused (by decide) (.inl rfl) _ rfl
      rcases capacity with _ | capacity
      · exact .refused (by decide) (.inr rfl) _ rfl
      exact .read (by decide) (by simp [surface, Lacking]) (create keyType capacity) rfl rfl rfl
  | edit =>
      rcases region with _ | region
      · exact .refused (by decide) (.inl rfl) _ rfl
      rcases capacity with _ | capacity
      · exact .refused (by decide) (.inr rfl) _ rfl
      exact .read (by decide) (by simp [surface, Lacking]) (resize region capacity) rfl rfl rfl
  | destroy =>
      rcases region with _ | region
      · exact .refused (by decide) rfl _ rfl
      exact .read (by decide) (by simp [surface, Lacking]) (destroy region) rfl rfl rfl
  | _ => exact .unsupported (by decide) rfl

lemma surface_exact : surface.Exact :=
  Surface.exact_of_decoded decoded exists_command (fun op => by cases op <;> rfl)
    (fun cmd p => by cases cmd <;> rfl)

end RegionOp

/-! ### ACLs -/

namespace AclOp

/-- The record of an operation. -/
def params : AclOp → AclParams
  | create aclType direction bitmap regions => ⟨none, aclType, some direction, bitmap, regions⟩
  | edit acl regions bitmap => ⟨some acl, .agnostic, none, bitmap, regions⟩
  | destroy acl => ⟨some acl, .agnostic, none, .empty, []⟩

/-- The parameters that a command uses. -/
def used (cmd : AccessCommand) (p : AclParams) : AclParams :=
  match cmd with
  | .create => ⟨none, p.aclType, p.direction, p.bitmap, p.regions⟩
  | .edit => ⟨p.acl, .agnostic, none, p.bitmap, p.regions⟩
  | .destroy => ⟨p.acl, .agnostic, none, .empty, []⟩
  | _ => ⟨none, .agnostic, none, .empty, []⟩

/-- The command does not get what it needs. -/
def Lacking (cmd : AccessCommand) (p : AclParams) : Prop :=
  match cmd with
  | .create => p.direction = none
  | .edit | .destroy => p.acl = none
  | _ => False

/-- Commands on ACLs. -/
def surface : Surface AclOp AclParams where
  resource := .acl
  command := command
  ofCommand := ofCommand
  commands := [.create, .edit, .destroy]
  params := params
  used := used
  Lacking := Lacking

lemma exists_command : ∀ cmd ∈ surface.commands, ∃ op, surface.command op = cmd := by
  simp only [surface, List.forall_mem_cons]
  exact ⟨⟨create .agnostic .ingress .empty [], rfl⟩, ⟨edit default [] .empty, rfl⟩,
    ⟨destroy default, rfl⟩, List.forall_mem_nil _⟩

lemma decoded (cmd : AccessCommand) (p : AclParams) : surface.Decoded cmd p := by
  obtain ⟨acl, aclType, direction, bitmap, regions⟩ := p
  cases cmd with
  | create =>
      rcases direction with _ | direction
      · exact .refused (by decide) rfl _ rfl
      exact .read (by decide) (by simp [surface, Lacking])
        (create aclType direction bitmap regions) rfl rfl rfl
  | edit =>
      rcases acl with _ | acl
      · exact .refused (by decide) rfl _ rfl
      exact .read (by decide) (by simp [surface, Lacking]) (edit acl regions bitmap) rfl rfl rfl
  | destroy =>
      rcases acl with _ | acl
      · exact .refused (by decide) rfl _ rfl
      exact .read (by decide) (by simp [surface, Lacking]) (destroy acl) rfl rfl rfl
  | _ => exact .unsupported (by decide) rfl

lemma surface_exact : surface.Exact :=
  Surface.exact_of_decoded decoded exists_command (fun op => by cases op <;> rfl)
    (fun cmd p => by cases cmd <;> rfl)

end AclOp

/-! ### Rules -/

namespace RuleOp

/-- The record of an operation. -/
def params : RuleOp → RuleParams
  | set region offsets rules => ⟨some region, offsets, rules, none, none⟩
  | delete region offsets => ⟨some region, offsets, [], none, none⟩
  | deleteAll region => ⟨some region, [], [], none, none⟩
  | move region block => ⟨some region, [], [], some block, none⟩
  | shiftPriority region shift => ⟨some region, [], [], none, some shift⟩

/-- The parameters that a command uses. -/
def used (cmd : AccessCommand) (p : RuleParams) : RuleParams :=
  match cmd with
  | .set => ⟨p.region, p.offsets, p.rules, none, none⟩
  | .delete => ⟨p.region, p.offsets, [], none, none⟩
  | .deleteAll => ⟨p.region, [], [], none, none⟩
  | .edit => ⟨p.region, [], [], p.block, p.shift⟩
  | _ => ⟨none, [], [], none, none⟩

/-- The command does not get what it needs. -/
def Lacking (cmd : AccessCommand) (p : RuleParams) : Prop :=
  match cmd with
  | .set | .delete | .deleteAll => p.region = none
  | .edit => p.block.isSome = p.shift.isSome ∨ p.region = none
  | _ => False

/-- Commands on rules. -/
def surface : Surface RuleOp RuleParams where
  resource := .rule
  command := command
  ofCommand := ofCommand
  commands := [.set, .delete, .deleteAll, .edit]
  params := params
  used := used
  Lacking := Lacking

lemma exists_command : ∀ cmd ∈ surface.commands, ∃ op, surface.command op = cmd := by
  simp only [surface, List.forall_mem_cons]
  exact ⟨⟨set default [] [], rfl⟩, ⟨delete default [], rfl⟩, ⟨deleteAll default, rfl⟩,
    ⟨move default ⟨0, 0, 0⟩, rfl⟩, List.forall_mem_nil _⟩

lemma decoded (cmd : AccessCommand) (p : RuleParams) : surface.Decoded cmd p := by
  obtain ⟨region, offsets, rules, block, shift⟩ := p
  cases cmd with
  | set =>
      rcases region with _ | region
      · exact .refused (by decide) rfl _ rfl
      exact .read (by decide) (by simp [surface, Lacking]) (set region offsets rules) rfl rfl rfl
  | delete =>
      rcases region with _ | region
      · exact .refused (by decide) rfl _ rfl
      exact .read (by decide) (by simp [surface, Lacking]) (delete region offsets) rfl rfl rfl
  | deleteAll =>
      rcases region with _ | region
      · exact .refused (by decide) rfl _ rfl
      exact .read (by decide) (by simp [surface, Lacking]) (deleteAll region) rfl rfl rfl
  | edit =>
      -- Both, or neither, is refused whether or not a region is given.
      rcases block with _ | block <;> rcases shift with _ | shift
      · exact .refused (by decide) (.inl rfl) _ rfl
      · rcases region with _ | region
        · exact .refused (by decide) (.inr rfl) _ rfl
        exact .read (by decide) (by simp [surface, Lacking])
          (shiftPriority region shift) rfl rfl rfl
      · rcases region with _ | region
        · exact .refused (by decide) (.inr rfl) _ rfl
        exact .read (by decide) (by simp [surface, Lacking]) (move region block) rfl rfl rfl
      · exact .refused (by decide) (.inl rfl) _ rfl
  | _ => exact .unsupported (by decide) rfl

lemma surface_exact : surface.Exact :=
  Surface.exact_of_decoded decoded exists_command (fun op => by cases op <;> rfl)
    (fun cmd p => by cases cmd <;> rfl)

end RuleOp

/-! ### Groups -/

namespace GroupOp

/-- The record of an operation. -/
def params : GroupOp → GroupParams
  | create direction => ⟨none, some direction, [], none, none⟩
  | set group acls => ⟨some group, none, acls, none, none⟩
  | add group acl => ⟨some group, none, [acl], none, none⟩
  | delete group acl => ⟨some group, none, [acl], none, none⟩
  | chain parent child => ⟨some parent, none, [], some child, none⟩
  | unchain parent => ⟨some parent, none, [], none, none⟩
  | setPriority group priority => ⟨some group, none, [], none, some priority⟩
  | destroy group => ⟨some group, none, [], none, none⟩

/-- The parameters that a command uses. -/
def used (cmd : AccessCommand) (p : GroupParams) : GroupParams :=
  match cmd with
  | .create => ⟨none, p.direction, [], none, none⟩
  | .set | .add | .delete => ⟨p.group, none, p.acls, none, none⟩
  | .bind => ⟨p.group, none, [], p.next, none⟩
  | .edit => ⟨p.group, none, [], none, p.priority⟩
  | .unbind | .destroy => ⟨p.group, none, [], none, none⟩
  | _ => ⟨none, none, [], none, none⟩

/-- The command does not get what it needs. -/
def Lacking (cmd : AccessCommand) (p : GroupParams) : Prop :=
  match cmd with
  | .create => p.direction = none
  | .add | .delete => p.group = none ∨ p.acls.length ≠ 1
  | .bind => p.group = none ∨ p.next = none
  | .edit => p.group = none ∨ p.priority = none
  | .set | .unbind | .destroy => p.group = none
  | _ => False

/-- Commands on groups. -/
def surface : Surface GroupOp GroupParams where
  resource := .group
  command := command
  ofCommand := ofCommand
  commands := [.create, .set, .add, .delete, .bind, .unbind, .edit, .destroy]
  params := params
  used := used
  Lacking := Lacking

lemma exists_command : ∀ cmd ∈ surface.commands, ∃ op, surface.command op = cmd := by
  simp only [surface, List.forall_mem_cons]
  exact ⟨⟨create .ingress, rfl⟩, ⟨set default [], rfl⟩, ⟨add default default, rfl⟩,
    ⟨delete default default, rfl⟩, ⟨chain default default, rfl⟩, ⟨unchain default, rfl⟩,
    ⟨setPriority default 0, rfl⟩, ⟨destroy default, rfl⟩, List.forall_mem_nil _⟩

lemma decoded (cmd : AccessCommand) (p : GroupParams) : surface.Decoded cmd p := by
  obtain ⟨group, direction, acls, next, priority⟩ := p
  cases cmd with
  | create =>
      rcases direction with _ | direction
      · exact .refused (by decide) rfl _ rfl
      exact .read (by decide) (by simp [surface, Lacking]) (create direction) rfl rfl rfl
  | set =>
      rcases group with _ | group
      · exact .refused (by decide) rfl _ rfl
      exact .read (by decide) (by simp [surface, Lacking]) (set group acls) rfl rfl rfl
  | add =>
      rcases group with _ | group
      · exact .refused (by decide) (.inl rfl) _ rfl
      rcases acls with _ | ⟨acl, _ | ⟨acl', acls⟩⟩
      · exact .refused (by decide) (.inr (by simp)) _ rfl
      · exact .read (by decide) (by simp [surface, Lacking]) (add group acl) rfl rfl rfl
      · exact .refused (by decide) (.inr (by simp)) _ rfl
  | delete =>
      rcases group with _ | group
      · exact .refused (by decide) (.inl rfl) _ rfl
      rcases acls with _ | ⟨acl, _ | ⟨acl', acls⟩⟩
      · exact .refused (by decide) (.inr (by simp)) _ rfl
      · exact .read (by decide) (by simp [surface, Lacking]) (delete group acl) rfl rfl rfl
      · exact .refused (by decide) (.inr (by simp)) _ rfl
  | bind =>
      rcases group with _ | group
      · exact .refused (by decide) (.inl rfl) _ rfl
      rcases next with _ | next
      · exact .refused (by decide) (.inr rfl) _ rfl
      exact .read (by decide) (by simp [surface, Lacking]) (chain group next) rfl rfl rfl
  | unbind =>
      rcases group with _ | group
      · exact .refused (by decide) rfl _ rfl
      exact .read (by decide) (by simp [surface, Lacking]) (unchain group) rfl rfl rfl
  | edit =>
      rcases group with _ | group
      · exact .refused (by decide) (.inl rfl) _ rfl
      rcases priority with _ | priority
      · exact .refused (by decide) (.inr rfl) _ rfl
      exact .read (by decide) (by simp [surface, Lacking]) (setPriority group priority) rfl rfl rfl
  | destroy =>
      rcases group with _ | group
      · exact .refused (by decide) rfl _ rfl
      exact .read (by decide) (by simp [surface, Lacking]) (destroy group) rfl rfl rfl
  | _ => exact .unsupported (by decide) rfl

lemma surface_exact : surface.Exact :=
  Surface.exact_of_decoded decoded exists_command (fun op => by cases op <;> rfl)
    (fun cmd p => by cases cmd <;> rfl)

end GroupOp

/-! ### Bindings -/

namespace BindOp

/-- The record of an operation. -/
def params : BindOp → BindParams
  | bind key target => ⟨some key.point, some key.direction, some target⟩
  | unbind key => ⟨some key.point, some key.direction, none⟩
  | add key group => ⟨some key.point, some key.direction, some (.group group)⟩
  | delete key group => ⟨some key.point, some key.direction, some (.group group)⟩

/-- The parameters that a command uses. -/
def used (cmd : AccessCommand) (p : BindParams) : BindParams :=
  match cmd with
  | .unbind => ⟨p.point, p.direction, none⟩
  | .bind | .add | .delete => ⟨p.point, p.direction, p.target⟩
  | _ => ⟨none, none, none⟩

/-- The command does not get what it needs. -/
def Lacking (cmd : AccessCommand) (p : BindParams) : Prop :=
  match cmd with
  | .bind => p.point = none ∨ p.direction = none ∨ p.target = none
  | .unbind => p.point = none ∨ p.direction = none
  | .add | .delete =>
    p.point = none ∨ p.direction = none ∨ p.target = none ∨ ∃ acl, p.target = some (.acl acl)
  | _ => False

/-- Commands on bindings. -/
def surface : Surface BindOp BindParams where
  resource := .binding
  command := command
  ofCommand := ofCommand
  commands := [.bind, .unbind, .add, .delete]
  params := params
  used := used
  Lacking := Lacking

lemma exists_command : ∀ cmd ∈ surface.commands, ∃ op, surface.command op = cmd := by
  simp only [surface, List.forall_mem_cons]
  exact ⟨⟨bind ⟨.port ⟨0⟩, .ingress⟩ (.acl default), rfl⟩, ⟨unbind ⟨.port ⟨0⟩, .ingress⟩, rfl⟩,
    ⟨add ⟨.port ⟨0⟩, .ingress⟩ default, rfl⟩, ⟨delete ⟨.port ⟨0⟩, .ingress⟩ default, rfl⟩,
    List.forall_mem_nil _⟩

lemma decoded (cmd : AccessCommand) (p : BindParams) : surface.Decoded cmd p := by
  obtain ⟨point, direction, target⟩ := p
  cases cmd with
  | bind =>
      rcases point with _ | point
      · exact .refused (by decide) (.inl rfl) _ rfl
      rcases direction with _ | direction
      · exact .refused (by decide) (.inr (.inl rfl)) _ rfl
      rcases target with _ | target
      · exact .refused (by decide) (.inr (.inr rfl)) _ rfl
      exact .read (by decide) (by simp [surface, Lacking])
        (bind ⟨point, direction⟩ target) rfl rfl rfl
  | unbind =>
      rcases point with _ | point
      · exact .refused (by decide) (.inl rfl) _ rfl
      rcases direction with _ | direction
      · exact .refused (by decide) (.inr rfl) _ rfl
      exact .read (by decide) (by simp [surface, Lacking]) (unbind ⟨point, direction⟩) rfl rfl rfl
  | add =>
      rcases point with _ | point
      · exact .refused (by decide) (.inl rfl) _ rfl
      rcases direction with _ | direction
      · exact .refused (by decide) (.inr (.inl rfl)) _ rfl
      rcases target with _ | acl | group
      · exact .refused (by decide) (.inr (.inr (.inl rfl))) _ rfl
      · exact .refused (by decide) (.inr (.inr (.inr ⟨acl, rfl⟩))) _ rfl
      exact .read (by decide) (by simp [surface, Lacking])
        (add ⟨point, direction⟩ group) rfl rfl rfl
  | delete =>
      rcases point with _ | point
      · exact .refused (by decide) (.inl rfl) _ rfl
      rcases direction with _ | direction
      · exact .refused (by decide) (.inr (.inl rfl)) _ rfl
      rcases target with _ | acl | group
      · exact .refused (by decide) (.inr (.inr (.inl rfl))) _ rfl
      · exact .refused (by decide) (.inr (.inr (.inr ⟨acl, rfl⟩))) _ rfl
      exact .read (by decide) (by simp [surface, Lacking])
        (delete ⟨point, direction⟩ group) rfl rfl rfl
  | _ => exact .unsupported (by decide) rfl

lemma surface_exact : surface.Exact :=
  Surface.exact_of_decoded decoded exists_command (fun op => by cases op <;> rfl)
    (fun cmd p => by cases cmd <;> rfl)

end BindOp

/-! ### Pool entries -/

namespace PoolOp

/-- The record of an operation. -/
def params : PoolOp → PoolParams
  | create value => ⟨none, some value⟩
  | edit entry value => ⟨some entry, some value⟩
  | add entry value => ⟨some entry, some value⟩
  | delete entry value => ⟨some entry, some value⟩
  | destroy entry => ⟨some entry, none⟩

/-- The parameters that a command uses. -/
def used (cmd : AccessCommand) (p : PoolParams) : PoolParams :=
  match cmd with
  | .create => ⟨none, p.value⟩
  | .edit | .add | .delete => ⟨p.entry, p.value⟩
  | .destroy => ⟨p.entry, none⟩
  | _ => ⟨none, none⟩

/-- The command does not get what it needs. -/
def Lacking (cmd : AccessCommand) (p : PoolParams) : Prop :=
  match cmd with
  | .create => p.value = none
  | .edit | .add | .delete => p.entry = none ∨ p.value = none
  | .destroy => p.entry = none
  | _ => False

/-- Commands on pool entries. -/
def surface : Surface PoolOp PoolParams where
  resource := .poolEntry
  command := command
  ofCommand := ofCommand
  commands := [.create, .edit, .add, .delete, .destroy]
  params := params
  used := used
  Lacking := Lacking

lemma exists_command : ∀ cmd ∈ surface.commands, ∃ op, surface.command op = cmd := by
  simp only [surface, List.forall_mem_cons]
  exact ⟨⟨create (.portList []), rfl⟩, ⟨edit (.portList default) (.portList []), rfl⟩,
    ⟨add (.portList default) (.portList []), rfl⟩,
    ⟨delete (.portList default) (.portList []), rfl⟩, ⟨destroy (.portList default), rfl⟩,
    List.forall_mem_nil _⟩

lemma decoded (cmd : AccessCommand) (p : PoolParams) : surface.Decoded cmd p := by
  obtain ⟨entry, value⟩ := p
  cases cmd with
  | create =>
      rcases value with _ | value
      · exact .refused (by decide) rfl _ rfl
      exact .read (by decide) (by simp [surface, Lacking]) (create value) rfl rfl rfl
  | edit =>
      rcases entry with _ | entry
      · exact .refused (by decide) (.inl rfl) _ rfl
      rcases value with _ | value
      · exact .refused (by decide) (.inr rfl) _ rfl
      exact .read (by decide) (by simp [surface, Lacking]) (edit entry value) rfl rfl rfl
  | add =>
      rcases entry with _ | entry
      · exact .refused (by decide) (.inl rfl) _ rfl
      rcases value with _ | value
      · exact .refused (by decide) (.inr rfl) _ rfl
      exact .read (by decide) (by simp [surface, Lacking]) (add entry value) rfl rfl rfl
  | delete =>
      rcases entry with _ | entry
      · exact .refused (by decide) (.inl rfl) _ rfl
      rcases value with _ | value
      · exact .refused (by decide) (.inr rfl) _ rfl
      exact .read (by decide) (by simp [surface, Lacking]) (delete entry value) rfl rfl rfl
  | destroy =>
      rcases entry with _ | entry
      · exact .refused (by decide) rfl _ rfl
      exact .read (by decide) (by simp [surface, Lacking]) (destroy entry) rfl rfl rfl
  | _ => exact .unsupported (by decide) rfl

lemma surface_exact : surface.Exact :=
  Surface.exact_of_decoded decoded exists_command (fun op => by cases op <;> rfl)
    (fun cmd p => by cases cmd <;> rfl)

end PoolOp

/-! ### Activity -/

namespace ActivityOp

/-- The record of an operation. -/
def params : ActivityOp → ActivityParams
  | read region offsets => ⟨some region, offsets⟩
  | readClear region offsets => ⟨some region, offsets⟩

/-- The parameters that a command uses. -/
def used (cmd : AccessCommand) (p : ActivityParams) : ActivityParams :=
  match cmd with
  | .read | .readClear => ⟨p.region, p.offsets⟩
  | _ => ⟨none, []⟩

/-- The command does not get what it needs. -/
def Lacking (cmd : AccessCommand) (p : ActivityParams) : Prop :=
  match cmd with
  | .read | .readClear => p.region = none
  | _ => False

/-- Commands on the activity of rules. -/
def surface : Surface ActivityOp ActivityParams where
  resource := .activity
  command := command
  ofCommand := ofCommand
  commands := [.read, .readClear]
  params := params
  used := used
  Lacking := Lacking

lemma exists_command : ∀ cmd ∈ surface.commands, ∃ op, surface.command op = cmd := by
  simp only [surface, List.forall_mem_cons]
  exact ⟨⟨read default [], rfl⟩, ⟨readClear default [], rfl⟩, List.forall_mem_nil _⟩

lemma decoded (cmd : AccessCommand) (p : ActivityParams) : surface.Decoded cmd p := by
  obtain ⟨region, offsets⟩ := p
  cases cmd with
  | read =>
      rcases region with _ | region
      · exact .refused (by decide) rfl _ rfl
      exact .read (by decide) (by simp [surface, Lacking]) (read region offsets) rfl rfl rfl
  | readClear =>
      rcases region with _ | region
      · exact .refused (by decide) rfl _ rfl
      exact .read (by decide) (by simp [surface, Lacking]) (readClear region offsets) rfl rfl rfl
  | _ => exact .unsupported (by decide) rfl

lemma surface_exact : surface.Exact :=
  Surface.exact_of_decoded decoded exists_command (fun op => by cases op <;> rfl)
    (fun cmd p => by cases cmd <;> rfl)

end ActivityOp

/-! ### Queries -/

namespace ObjectQuery

/-- The record of an operation. -/
def params : ObjectQuery → QueryParams
  | ⟨kind, .count⟩ => ⟨kind, none, none⟩
  | ⟨kind, .get key⟩ => ⟨kind, some key, none⟩
  | ⟨kind, .first n⟩ => ⟨kind, none, some n⟩
  | ⟨kind, .next after n⟩ => ⟨kind, some after, some n⟩

/-- The parameters that a command uses. -/
def used (cmd : AccessCommand) (p : QueryParams) : QueryParams :=
  match cmd with
  | .get => ⟨p.kind, p.key, none⟩
  | .getFirst => ⟨p.kind, none, p.count⟩
  | .getNext => ⟨p.kind, p.key, p.count⟩
  | _ => ⟨p.kind, none, none⟩

/-- The command does not get what it needs. -/
def Lacking (cmd : AccessCommand) (p : QueryParams) : Prop :=
  match cmd with
  | .getFirst => p.count = none
  | .getNext => p.key = none ∨ p.count = none
  | _ => False

/-- Queries over the objects of one kind. -/
def surface : Surface ObjectQuery QueryParams where
  resource := .objectQuery
  command := command
  ofCommand := ofCommand
  commands := [.get, .getFirst, .getNext]
  params := params
  used := used
  Lacking := Lacking

lemma exists_command : ∀ cmd ∈ surface.commands, ∃ op, surface.command op = cmd := by
  simp only [surface, List.forall_mem_cons]
  exact ⟨⟨⟨.acl, .count⟩, rfl⟩, ⟨⟨.acl, .first 0⟩, rfl⟩, ⟨⟨.acl, .next 0 0⟩, rfl⟩,
    List.forall_mem_nil _⟩

lemma decoded (cmd : AccessCommand) (p : QueryParams) : surface.Decoded cmd p := by
  obtain ⟨kind, key, count⟩ := p
  cases cmd with
  | get =>
      rcases key with _ | key
      · exact .read (by decide) (by simp [surface, Lacking]) ⟨kind, .count⟩ rfl rfl rfl
      exact .read (by decide) (by simp [surface, Lacking]) ⟨kind, .get key⟩ rfl rfl rfl
  | getFirst =>
      rcases count with _ | count
      · exact .refused (by decide) rfl _ rfl
      exact .read (by decide) (by simp [surface, Lacking]) (⟨kind, .first count⟩) rfl rfl rfl
  | getNext =>
      rcases key with _ | key
      · exact .refused (by decide) (.inl rfl) _ rfl
      rcases count with _ | count
      · exact .refused (by decide) (.inr rfl) _ rfl
      exact .read (by decide) (by simp [surface, Lacking]) (⟨kind, .next key count⟩) rfl rfl rfl
  | _ => exact .unsupported (by decide) rfl

lemma surface_exact : surface.Exact :=
  Surface.exact_of_decoded decoded exists_command
    (fun op => by rcases op with ⟨kind, _ | _ | _ | _⟩ <;> rfl)
    (fun cmd p => by cases cmd <;> rfl)

end ObjectQuery

/-! ### The command surface -/

/-- **Decoding is exact** on each of the nine surfaces. -/
theorem decoding_exact :
    KeyTypeOp.surface.Exact ∧ RegionOp.surface.Exact ∧ AclOp.surface.Exact ∧
      RuleOp.surface.Exact ∧ GroupOp.surface.Exact ∧ BindOp.surface.Exact ∧
      PoolOp.surface.Exact ∧ ActivityOp.surface.Exact ∧ ObjectQuery.surface.Exact :=
  ⟨KeyTypeOp.surface_exact, RegionOp.surface_exact, AclOp.surface_exact, RuleOp.surface_exact,
    GroupOp.surface_exact, BindOp.surface_exact, PoolOp.surface_exact, ActivityOp.surface_exact,
    ObjectQuery.surface_exact⟩

end AclPlane
