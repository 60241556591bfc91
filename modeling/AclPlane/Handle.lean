import AclPlane.Text.Hex

/-!
Object kinds and generation-tagged handles.

Every object the control plane owns is named by a `Handle` of its kind.  The generation tells
successive occupants of one slot apart, so a handle of a destroyed object stays distinct from
the handle of whatever takes its slot.

* `ofHalves` — two numbers of 32 bits in one of 64; `ofHalves_inj` says that both can be read back.
* `Handle.raw` and `Handle.ofRaw?` — the 64-bit value that the device sees, and its decoding;
  `ofRaw?_raw` says that decoding inverts encoding for every generation but zero.
* The order of handles is by slot index, then by generation.
-/

namespace AclPlane

/-! ### Object kinds -/

/-- The kinds of object that carry a handle. -/
inductive ObjectKind where
  | keyType | region | acl | group | pbs | range | customBytes | portList | vlanGroup
  deriving DecidableEq, Repr

namespace ObjectKind

/-- Every kind of object. -/
def all : List ObjectKind :=
  [keyType, region, acl, group, pbs, range, customBytes, portList, vlanGroup]

/-- The kind as events and queries spell it. -/
def name : ObjectKind → String
  | keyType => "KEY_TYPE"
  | region => "REGION"
  | acl => "ACL"
  | group => "ACL_GROUP"
  | pbs => "PBS"
  | range => "RANGE"
  | customBytes => "CUSTOM_BYTES"
  | portList => "PORT_LIST"
  | vlanGroup => "VLAN_GROUP"

/-- The kind as the text of a handle spells it. -/
def label : ObjectKind → String
  | keyType => "KeyType"
  | region => "Region"
  | acl => "Acl"
  | group => "AclGroup"
  | pbs => "Pbs"
  | range => "Range"
  | customBytes => "CustomBytes"
  | portList => "PortList"
  | vlanGroup => "VlanGroup"

end ObjectKind

/-! ### Two halves in one number -/

/-- The number with the given upper and lower half. -/
def ofHalves (high low : UInt32) : UInt64 := UInt64.ofNat (high.toNat * UInt32.size + low.toNat)

section Halves

variable (high low : UInt32)

/-- The halves fit in 64 bits together. -/
theorem toNat_ofHalves : (ofHalves high low).toNat = high.toNat * UInt32.size + low.toNat := by
  have hhigh := high.toNat_lt
  have hlow := low.toNat_lt
  simp only [ofHalves, UInt64.toNat_ofNat', UInt32.size]
  omega

/-- The upper half is read back by division. -/
theorem toNat_ofHalves_div : (ofHalves high low).toNat / UInt32.size = high.toNat := by
  have hlow := low.toNat_lt
  simp only [toNat_ofHalves, UInt32.size]
  omega

/-- The lower half is the rest. -/
theorem toNat_ofHalves_mod : (ofHalves high low).toNat % UInt32.size = low.toNat := by
  have hlow := low.toNat_lt
  simp only [toNat_ofHalves, UInt32.size]
  omega

variable {high low} {high' low' : UInt32}

/-- A number determines its halves. -/
theorem ofHalves_inj : ofHalves high low = ofHalves high' low' ↔ high = high' ∧ low = low' := by
  constructor
  · intro h
    have hhigh : high = high' := by
      rw [← UInt32.toNat_inj, ← toNat_ofHalves_div high low, h, toNat_ofHalves_div]
    have hlow : low = low' := by
      rw [← UInt32.toNat_inj, ← toNat_ofHalves_mod high low, h, toNat_ofHalves_mod]
    exact ⟨hhigh, hlow⟩
  · rintro ⟨rfl, rfl⟩
    rfl

end Halves

/-! ### Handles -/

/-- The value by which the device knows an object: the generation in the upper half, the slot
index in the lower half. -/
abbrev RawHandle := UInt64

/-- A handle to an object of kind `kind`. -/
structure Handle (kind : ObjectKind) where
  index : UInt32
  generation : UInt32
  deriving DecidableEq, Repr

namespace Handle

variable {kind : ObjectKind}

/-- The value handed to the device. -/
def raw (h : Handle kind) : RawHandle := ofHalves h.generation h.index

/-- The handle with the given raw value.  Generation zero names nothing, since no live object
carries it. -/
def ofRaw? (raw : RawHandle) : Option (Handle kind) :=
  if raw.toNat / UInt32.size = 0 then none
  else some ⟨UInt32.ofNat (raw.toNat % UInt32.size), UInt32.ofNat (raw.toNat / UInt32.size)⟩

theorem raw_inj {a b : Handle kind} : a.raw = b.raw ↔ a = b := by
  rw [raw, raw, ofHalves_inj, and_comm, Handle.mk.injEq]

theorem ofRaw?_raw (h : Handle kind) (hg : h.generation ≠ 0) : ofRaw? h.raw = some h := by
  have hg' : h.generation.toNat ≠ 0 := fun h0 => hg (UInt32.toNat_inj.1 h0)
  simp only [ofRaw?, raw, toNat_ofHalves_div, toNat_ofHalves_mod, if_neg hg', UInt32.ofNat_toNat]

theorem ofRaw?_eq_none_iff {raw : RawHandle} :
    (ofRaw? raw : Option (Handle kind)) = none ↔ raw.toNat < UInt32.size := by
  unfold ofRaw?
  split
  · simp only [true_iff, UInt32.size] at *
    omega
  · simp only [reduceCtorEq, false_iff, UInt32.size] at *
    omega

/-! ### Order and text -/

/-- Handles are ordered by slot index, then by generation. -/
instance : Ord (Handle kind) := ⟨compareLex (compareOn index) (compareOn generation)⟩

instance : Std.TransOrd (Handle kind) :=
  inferInstanceAs (Std.TransCmp (compareLex (compareOn index) (compareOn generation)))

theorem compare_eq_lex (a b : Handle kind) :
    compare a b = (compare a.index b.index).then (compare a.generation b.generation) := rfl

instance : Std.LawfulEqOrd (Handle kind) where
  eq_of_compare {a b} h := by
    rw [compare_eq_lex, Ordering.then_eq_eq] at h
    cases a with
    | mk i g =>
      cases b with
      | mk j k =>
        have hi : i = j := Std.LawfulEqOrd.eq_of_compare h.1
        have hg : g = k := Std.LawfulEqOrd.eq_of_compare h.2
        rw [hi, hg]

/-- The handle as error messages name it, such as `Region(0#1)`. -/
def text (h : Handle kind) : String :=
  kind.label ++ "(" ++ toString h.index.toNat ++ "#" ++ toString h.generation.toNat ++ ")"

/-- The handle with its raw value in hexadecimal, such as `Region:0x0000000100000000`. -/
def address (h : Handle kind) : String :=
  kind.label ++ ":0x" ++ hexPadded 16 h.raw.toNat

end Handle

/-! ### Handles of any kind -/

/-- A handle together with its kind. -/
structure ObjectRef where
  kind : ObjectKind
  handle : Handle kind
  deriving DecidableEq, Repr

namespace ObjectRef

/-- The object as error messages name it. -/
def text (r : ObjectRef) : String := r.handle.text

/-- The value by which the device knows the object. -/
def raw (r : ObjectRef) : RawHandle := r.handle.raw

end ObjectRef

/-- Forgets the kind in the type of a handle. -/
def Handle.ref {kind : ObjectKind} (h : Handle kind) : ObjectRef := ⟨kind, h⟩

end AclPlane
