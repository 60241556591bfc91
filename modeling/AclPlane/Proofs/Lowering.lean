import AclPlane.Proofs.StoredRules

/-!
The image of a rule says what the rule says.

Every kind of match becomes a value and a mask of 128 bits, and every action an operation code and
an argument of 64 bits.

* `Match.Holds`: the meaning of a match, without words; `Match.holds_iff`: a word is found under the
  mask exactly if the match holds.
* `Match.Alike`: matches that differ in nothing but the bits they do not look at;
  `Match.alike_iff`: these are the matches of one key that share their bits.
* `Action.word_injective`: an action is determined by its word.
* `Rule.image_faithful`: so an image is found on the packets of the rule, and tells rules apart up
  to bits that they do not look at.
-/

namespace AclPlane

/-! ### Bits under a mask -/

lemma setWidth_inj {w : ℕ} (hw : w ≤ 128) {x y : BitVec w} :
    x.setWidth 128 = y.setWidth 128 ↔ x = y := by
  refine ⟨fun h => ?_, congrArg _⟩
  have hback := congrArg (BitVec.setWidth w) h
  rwa [BitVec.setWidth_setWidth_of_le _ hw, BitVec.setWidth_setWidth_of_le _ hw, BitVec.setWidth_eq,
    BitVec.setWidth_eq] at hback

/-- Extended words agree under an extended mask exactly if the words agree under the mask. -/
lemma setWidth_and_eq_iff {w : ℕ} (hw : w ≤ 128) {x y m : BitVec w} :
    x.setWidth 128 &&& m.setWidth 128 = y.setWidth 128 &&& m.setWidth 128 ↔
      x &&& m = y &&& m := by
  rw [← BitVec.setWidth_and, ← BitVec.setWidth_and, setWidth_inj hw]

/-! ### Prefixes -/

section Prefixes

variable {w length length' : ℕ}

/-- The mask of a prefix has the first bits set. -/
lemma getMsbD_prefixMask (hlength : length ≤ w) (i : ℕ) :
    (prefixMask w length).getMsbD i = decide (i < length) := by
  rw [prefixMask, BitVec.getMsbD_shiftLeft, BitVec.getMsbD_allOnes, decide_eq_decide]
  omega

lemma prefixMask_inj (hlength : length ≤ w) (hlength' : length' ≤ w) :
    prefixMask w length = prefixMask w length' ↔ length = length' := by
  refine ⟨fun h => ?_, congrArg _⟩
  have hbits : ∀ i, i < length ↔ i < length' := by
    intro i
    have hi := congrArg (BitVec.getMsbD · i) h
    rwa [getMsbD_prefixMask hlength, getMsbD_prefixMask hlength', decide_eq_decide] at hi
  have hlt := hbits length
  have hlt' := hbits length'
  omega

/-- Words agree under the mask of a prefix exactly if they agree in its bits. -/
lemma and_prefixMask_eq_iff (hlength : length ≤ w) {x y : BitVec w} :
    x &&& prefixMask w length = y &&& prefixMask w length ↔
      ∀ i < length, x.getMsbD i = y.getMsbD i := by
  constructor
  · intro h i hi
    have hbit := congrArg (BitVec.getMsbD · i) h
    rwa [BitVec.getMsbD_and, BitVec.getMsbD_and, getMsbD_prefixMask hlength, decide_eq_true hi,
      Bool.and_true, Bool.and_true] at hbit
  · intro h
    refine BitVec.eq_of_getMsbD_eq fun i _ => ?_
    rw [BitVec.getMsbD_and, BitVec.getMsbD_and, getMsbD_prefixMask hlength]
    by_cases hi : i < length
    · rw [h i hi]
    · rw [decide_eq_false hi, Bool.and_false, Bool.and_false]

end Prefixes

/-! ### MAC addresses -/

namespace Mac

/-- The bytes of an address under a mask. -/
def masked (a mask : Mac) : List ℕ := List.zipWith (· &&& ·) a.bytes mask.bytes

lemma bytes_and (a mask : Mac) : bytes (a &&& mask) = a.masked mask := by
  simp only [bytes, masked, List.map_cons, List.map_nil, List.zipWith_cons_cons,
    List.zipWith_nil_left, BitVec.extractLsb'_and, BitVec.toNat_and]

/-- An address is determined by its bytes. -/
lemma bytes_inj {a b : Mac} : a.bytes = b.bytes ↔ a = b := by
  refine ⟨fun h => ?_, congrArg bytes⟩
  have hbyte : ∀ low ∈ [40, 32, 24, 16, 8, 0], a.extractLsb' low 8 = b.extractLsb' low 8 :=
    fun low hlow => BitVec.eq_of_toNat_eq (List.map_inj_left.mp h low hlow)
  refine BitVec.eq_of_getLsbD_eq fun i hi => ?_
  have hlow : i / 8 * 8 ∈ [40, 32, 24, 16, 8, 0] := by
    have hlt : i / 8 < 6 := by omega
    interval_cases i / 8 <;> decide
  have hbit := congrArg (BitVec.getLsbD · (i % 8)) (hbyte _ hlow)
  rwa [BitVec.getLsbD_extractLsb', BitVec.getLsbD_extractLsb', decide_eq_true (by omega),
    Bool.true_and, Bool.true_and, Nat.div_add_mod'] at hbit

lemma and_eq_iff {a b mask : Mac} : a &&& mask = b &&& mask ↔ a.masked mask = b.masked mask := by
  rw [← bytes_and, ← bytes_and, bytes_inj]

end Mac

/-! ### The meaning of a match -/

namespace Match

/-- The width of the values that a match compares.  A range or a port list is given by its handle,
and custom bytes are the extracted bytes behind the handle of their set. -/
def width : Match → ℕ
  | ipv4 .. => 32
  | ipv6 .. => 128
  | mac .. => 48
  | value .. => 64
  | range _ => 64
  | portList _ => 64
  | customBytes .. => 64 + 32

/-- What a match says of a value. -/
def Holds : (m : Match) → BitVec m.width → Prop
  | ipv4 addr length, x => ∀ i < length, x.getMsbD i = addr.getMsbD i
  | ipv6 addr length, x => ∀ i < length, x.getMsbD i = addr.getMsbD i
  | mac addr mask, x => Mac.masked x mask = addr.masked mask
  | value v mask, (x : BitVec 64) => x &&& mask = v &&& mask
  | range id, x => x = id.raw.toBitVec
  | portList id, x => x = id.raw.toBitVec
  | customBytes set v mask, x =>
    ∃ bytes : BitVec 32, x = set.raw.toBitVec ++ bytes ∧ bytes &&& mask = v &&& mask

/-- Matches that differ in nothing but the bits they do not look at. -/
inductive Alike : Match → Match → Prop where
  | ipv4 {addr addr' : Ipv4} {length : ℕ} (same : ∀ i < length, addr.getMsbD i = addr'.getMsbD i) :
      Alike (ipv4 addr length) (ipv4 addr' length)
  | ipv6 {addr addr' : Ipv6} {length : ℕ} (same : ∀ i < length, addr.getMsbD i = addr'.getMsbD i) :
      Alike (ipv6 addr length) (ipv6 addr' length)
  | mac {addr addr' mask : Mac} (same : addr.masked mask = addr'.masked mask) :
      Alike (mac addr mask) (mac addr' mask)
  | value {v v' mask : BitVec 64} (same : v &&& mask = v' &&& mask) :
      Alike (value v mask) (value v' mask)
  | range {id : Handle .range} : Alike (range id) (range id)
  | portList {id : Handle .portList} : Alike (portList id) (portList id)
  | customBytes {set : Handle .customBytes} {v v' mask : BitVec 32}
      (same : v &&& mask = v' &&& mask) : Alike (customBytes set v mask) (customBytes set v' mask)

variable {m m' : Match} {key : BasicKey}

/-- The kind of match that can be used on a key. -/
def kindOf : BasicKey → MatchKind
  | .srcIp | .dstIp => .ipv4
  | .srcIpv6 | .dstIpv6 => .ipv6
  | .smac | .dmac => .mac
  | .l4PortRange => .range
  | .rxList | .txList => .portList
  | .customBytes0 | .customBytes1 => .customBytes
  | _ => .value

lemma kind_of_fits (hfits : m.fits key = true) : m.kind = kindOf key := by
  cases m <;> cases key <;> first | rfl | cases hfits

/-- The values that a match compares are as wide as the key. -/
lemma width_le_of_fits (hfits : m.fits key = true) : key.width ≤ m.width := by
  cases m <;> cases key <;> first | exact Nat.le_of_ble_eq_true rfl | cases hfits

/-! ### Words -/

lemma raw_toBitVec_inj {kind : ObjectKind} {a b : Handle kind} :
    a.raw.toBitVec = b.raw.toBitVec ↔ a = b := by
  rw [UInt64.toBitVec_inj, Handle.raw_inj]

/-- A handle is looked at as a whole. -/
lemma whole_eq_iff {x y : BitVec 64} :
    x.setWidth 128 &&& (BitVec.allOnes 64).setWidth 128 =
      y.setWidth 128 &&& (BitVec.allOnes 64).setWidth 128 ↔ x = y := by
  rw [setWidth_and_eq_iff (by decide), BitVec.and_allOnes, BitVec.and_allOnes]

lemma append_inj {a b : BitVec 64} {v v' : BitVec 32} : a ++ v = b ++ v' ↔ a = b ∧ v = v' := by
  constructor
  · intro h
    have hhigh := congrArg (BitVec.extractLsb' 32 64) h
    have hlow := congrArg (BitVec.setWidth 32) h
    rw [BitVec.extractLsb'_append_eq_left, BitVec.extractLsb'_append_eq_left] at hhigh
    rw [BitVec.setWidth_append_eq_right, BitVec.setWidth_append_eq_right] at hlow
    exact ⟨hhigh, hlow⟩
  · rintro ⟨rfl, rfl⟩
    rfl

/-- A handle is looked at as a whole, and the bits behind it under their mask. -/
lemma append_eq_iff {a b : BitVec 64} {v v' mask : BitVec 32} :
    (a ++ v).setWidth 128 &&& (BitVec.allOnes 64 ++ mask).setWidth 128 =
      (b ++ v').setWidth 128 &&& (BitVec.allOnes 64 ++ mask).setWidth 128 ↔
      a = b ∧ v &&& mask = v' &&& mask := by
  rw [setWidth_and_eq_iff (by decide), BitVec.and_append, BitVec.and_append, BitVec.and_allOnes,
    BitVec.and_allOnes, append_inj]

lemma length_le_of_ipv4 {addr : Ipv4} {length : ℕ} (hfits : (ipv4 addr length).fits key = true) :
    length ≤ 32 :=
  of_decide_eq_true (Bool.and_eq_true_iff.mp hfits).2

lemma length_le_of_ipv6 {addr : Ipv6} {length : ℕ} (hfits : (ipv6 addr length).fits key = true) :
    length ≤ 128 :=
  of_decide_eq_true (Bool.and_eq_true_iff.mp hfits).2

/-- A value is found under the mask of a match exactly if the match holds. -/
theorem holds_iff (hfits : m.fits key = true) (x : BitVec m.width) :
    x.setWidth 128 &&& m.bits.2 = m.bits.1 &&& m.bits.2 ↔ m.Holds x := by
  cases m with
  | ipv4 addr length =>
      exact (setWidth_and_eq_iff (w := 32) (by decide)).trans
        (and_prefixMask_eq_iff (length_le_of_ipv4 hfits))
  | ipv6 addr length =>
      exact (congrArg (· &&& prefixMask 128 length = addr &&& prefixMask 128 length)
        (BitVec.setWidth_eq (n := 128) x)).to_iff.trans
          (and_prefixMask_eq_iff (length_le_of_ipv6 hfits))
  | mac addr mask => exact (setWidth_and_eq_iff (w := 48) (by decide)).trans Mac.and_eq_iff
  | value v mask => exact setWidth_and_eq_iff (w := 64) (by decide)
  | range id => exact whole_eq_iff
  | portList id => exact whole_eq_iff
  | customBytes set v mask =>
      obtain ⟨a, bytes, rfl⟩ : ∃ (a : BitVec 64) (bytes : BitVec 32), x = a ++ bytes :=
        ⟨_, _, BitVec.extractLsb'_append_extractLsb'.symm⟩
      refine append_eq_iff.trans ⟨?_, ?_⟩
      · rintro ⟨rfl, hbytes⟩
        exact ⟨bytes, rfl, hbytes⟩
      · rintro ⟨bytes', hx, hbytes⟩
        obtain ⟨rfl, rfl⟩ := append_inj.mp hx
        exact ⟨rfl, hbytes⟩

/-- Matches that are alike have the same mask, and the same bits under it. -/
lemma Alike.bits_eq (h : m.Alike m') (hfits : m.fits key = true) :
    m.bits.1 &&& m.bits.2 = m'.bits.1 &&& m'.bits.2 ∧ m.bits.2 = m'.bits.2 := by
  cases h with
  | ipv4 same =>
      refine ⟨(setWidth_and_eq_iff (w := 32) (by decide)).mpr ?_, rfl⟩
      exact (and_prefixMask_eq_iff (length_le_of_ipv4 hfits)).mpr same
  | ipv6 same => exact ⟨(and_prefixMask_eq_iff (length_le_of_ipv6 hfits)).mpr same, rfl⟩
  | mac same =>
      exact ⟨(setWidth_and_eq_iff (w := 48) (by decide)).mpr (Mac.and_eq_iff.mpr same), rfl⟩
  | value same => exact ⟨(setWidth_and_eq_iff (w := 64) (by decide)).mpr same, rfl⟩
  | range => exact ⟨rfl, rfl⟩
  | portList => exact ⟨rfl, rfl⟩
  | customBytes same => exact ⟨append_eq_iff.mpr ⟨rfl, same⟩, rfl⟩

/-- Two matches of one key share their mask and the bits under it exactly if they are alike. -/
theorem alike_iff (hfits : m.fits key = true) (hfits' : m'.fits key = true) :
    m.bits.1 &&& m.bits.2 = m'.bits.1 &&& m'.bits.2 ∧ m.bits.2 = m'.bits.2 ↔ m.Alike m' := by
  refine ⟨?_, fun h => h.bits_eq hfits⟩
  -- the key tells the kind of match, which the words do not show
  have hkind : m.kind = m'.kind := (kind_of_fits hfits).trans (kind_of_fits hfits').symm
  rintro ⟨hvalue, hmask⟩
  cases m with
  | ipv4 addr length =>
      cases m' with
      | ipv4 addr' length' =>
          have hlength := length_le_of_ipv4 hfits
          obtain rfl : length = length' := (prefixMask_inj hlength (length_le_of_ipv4 hfits')).mp
            ((setWidth_inj (by decide)).mp hmask)
          exact .ipv4 ((and_prefixMask_eq_iff hlength).mp
            ((setWidth_and_eq_iff (w := 32) (by decide)).mp hvalue))
      | _ => cases hkind
  | ipv6 addr length =>
      cases m' with
      | ipv6 addr' length' =>
          have hlength := length_le_of_ipv6 hfits
          obtain rfl : length = length' :=
            (prefixMask_inj hlength (length_le_of_ipv6 hfits')).mp hmask
          exact .ipv6 ((and_prefixMask_eq_iff hlength).mp hvalue)
      | _ => cases hkind
  | mac addr mask =>
      cases m' with
      | mac addr' mask' =>
          obtain rfl : mask = mask' := (setWidth_inj (w := 48) (by decide)).mp hmask
          exact .mac (Mac.and_eq_iff.mp ((setWidth_and_eq_iff (by decide)).mp hvalue))
      | _ => cases hkind
  | value v mask =>
      cases m' with
      | value v' mask' =>
          obtain rfl : mask = mask' := (setWidth_inj (w := 64) (by decide)).mp hmask
          exact .value ((setWidth_and_eq_iff (w := 64) (by decide)).mp hvalue)
      | _ => cases hkind
  | range id =>
      cases m' with
      | range id' =>
          obtain rfl : id = id' := raw_toBitVec_inj.mp (whole_eq_iff.mp hvalue)
          exact .range
      | _ => cases hkind
  | portList id =>
      cases m' with
      | portList id' =>
          obtain rfl : id = id' := raw_toBitVec_inj.mp (whole_eq_iff.mp hvalue)
          exact .portList
      | _ => cases hkind
  | customBytes set v mask =>
      cases m' with
      | customBytes set' v' mask' =>
          obtain ⟨-, rfl⟩ := append_inj.mp ((setWidth_inj (w := 64 + 32) (by decide)).mp hmask)
          obtain ⟨hset, hbytes⟩ := append_eq_iff.mp hvalue
          obtain rfl := raw_toBitVec_inj.mp hset
          exact .customBytes hbytes
      | _ => cases hkind

end Match

/-! ### Words of conditions and actions -/

namespace KeyMatch

/-- Conditions on the same key that differ in nothing but the bits they do not look at. -/
structure Alike (k k' : KeyMatch) : Prop where
  key : k.key = k'.key
  matcher : k.matcher.Alike k'.matcher

lemma word_eq_iff {k k' : KeyMatch} (hfits : k.matcher.fits k.key = true)
    (hfits' : k'.matcher.fits k'.key = true) : k.word = k'.word ↔ k.Alike k' := by
  rw [word, word, KeyWord.mk.injEq]
  constructor
  · rintro ⟨hcode, hbits⟩
    have hkey := BasicKey.code_inj hcode
    rw [← hkey] at hfits'
    exact ⟨hkey, (Match.alike_iff hfits hfits').mp hbits⟩
  · rintro ⟨hkey, halike⟩
    exact ⟨congrArg _ hkey, halike.bits_eq hfits⟩

/-- So it is with lists of conditions. -/
lemma map_word_eq_iff {keys keys' : List KeyMatch}
    (hfits : ∀ k ∈ keys, k.matcher.fits k.key = true)
    (hfits' : ∀ k ∈ keys', k.matcher.fits k.key = true) :
    keys.map word = keys'.map word ↔ List.Forall₂ Alike keys keys' := by
  induction keys generalizing keys' with
  | nil =>
      rw [List.map_nil, List.forall₂_nil_left_iff, eq_comm, List.map_eq_nil_iff]
  | cons k keys ih =>
      cases keys' with
      | nil => exact iff_of_false nofun nofun
      | cons k' keys' =>
          rw [List.forall_mem_cons] at hfits hfits'
          rw [List.map_cons, List.map_cons, List.cons.injEq, List.forall₂_cons,
            word_eq_iff hfits.1 hfits'.1, ih hfits.2 hfits'.2]

end KeyMatch

/-- An action is determined by its word. -/
theorem Action.word_injective : Function.Injective Action.word := by
  intro a a' h
  have hopcode : a.word.opcode = a'.word.opcode := congrArg _ h
  have harg : a.word.arg = a'.word.arg := congrArg _ h
  cases a <;> cases a' <;> cases hopcode
  case nextHop.nextHop.refl id id' => rw [UInt32.toUInt64_inj.mp harg]
  case port.port.refl id id' =>
      exact congrArg (fun number => port ⟨number⟩) (UInt32.toUInt64_inj.mp harg)
  case discard.discard.refl => rfl
  case pbs.pbs.refl id id' => rw [Handle.raw_inj.mp harg]
  case mirror.mirror.refl id id' => rw [UInt32.toUInt64_inj.mp harg]
  case mirrorSampled.mirrorSampled.refl id rate id' rate' =>
      obtain ⟨rfl, rfl⟩ := ofHalves_inj.mp harg
      rfl
  case trap.trap.refl id id' => rw [UInt16.toUInt64_inj.mp harg]
  case trapForward.trapForward.refl id id' => rw [UInt16.toUInt64_inj.mp harg]
  case counter.counter.refl id id' =>
      exact congrArg (fun number => counter ⟨number⟩) (UInt32.toUInt64_inj.mp harg)
  case setDscp.setDscp.refl dscp dscp' => rw [UInt8.toUInt64_inj.mp harg]
  case setPcp.setPcp.refl pcp pcp' => rw [UInt8.toUInt64_inj.mp harg]
  case setVlan.setVlan.refl vlan vlan' => rw [UInt16.toUInt64_inj.mp harg]
  case policer.policer.refl id id' => rw [UInt32.toUInt64_inj.mp harg]

/-! ### Images of rules -/

/-- The image of a rule that has passed its check says what the rule says.  Under the mask of a key
word lie the bits of its value exactly for those values of the field that the condition holds of.
And the images of two such rules are equal exactly if the offsets are, the rules have the same
priority and the same actions, and their conditions are pairwise on the same key and differ in
nothing but bits that they do not look at. -/
theorem Rule.image_faithful {r r' : Rule} {fields fields' : FieldSet}
    {bounds bounds' : PriorityRange} (hr : r.check fields bounds = .ok ())
    (hr' : r'.check fields' bounds' = .ok ()) (offset offset' : ℕ) :
    (∀ k ∈ r.keys, k.key.width ≤ k.matcher.width ∧ k.word.field = k.key.code ∧
      ∀ x : BitVec k.matcher.width,
        x.setWidth 128 &&& k.word.mask = k.word.value ↔ k.matcher.Holds x) ∧
    (r.image offset = r'.image offset' ↔
      offset = offset' ∧ r.priority = r'.priority ∧ r.actions = r'.actions ∧
        List.Forall₂ KeyMatch.Alike r.keys r'.keys) := by
  have hfits := fun k hk => ((check_eq_ok.mp hr).keys k hk).2
  have hfits' := fun k hk => ((check_eq_ok.mp hr').keys k hk).2
  refine ⟨fun k hk => ⟨Match.width_le_of_fits (hfits k hk), rfl, Match.holds_iff (hfits k hk)⟩, ?_⟩
  rw [image, image, RuleImage.mk.injEq, KeyMatch.map_word_eq_iff hfits hfits',
    (List.map_injective_iff.mpr Action.word_injective).eq_iff]
  constructor
  · rintro ⟨hoffset, hpriority, hkeys, hactions⟩
    exact ⟨hoffset, hpriority, hactions, hkeys⟩
  · rintro ⟨hoffset, hpriority, hactions, hkeys⟩
    exact ⟨hoffset, hpriority, hkeys, hactions⟩

/-- Conditions with prefixes of lengths 8 and 0, and with custom bytes of which one is looked at. -/
def Rule.sampling (addr : Ipv4) (v : BitVec 32) : Rule :=
  ⟨5, [⟨.srcIp, .ipv4 addr 8⟩, ⟨.dstIpv6, .ipv6 0#128 0⟩,
    ⟨.customBytes0, .customBytes ⟨0, 1⟩ v 0xff#32⟩], [.mirrorSampled 3 100]⟩

/-- The rules for `10.0.0.0/8` and `10.9.9.9/8` have the same image, that for `11.0.0.0/8` has
another; and the first is found on a packet from `10.1.2.3`. -/
theorem Rule.image_faithful_of_sampling :
    let fields := FieldSet.ofList BasicKey.all
    let bounds : PriorityRange := ⟨1, 100, 1⟩
    let r := sampling 0x0a000000#32 0x1234#32
    r.check fields bounds = .ok () ∧
    r.image 4 = (sampling 0x0a090909#32 0x34#32).image 4 ∧
    r.image 4 ≠ (sampling 0x0b000000#32 0x1234#32).image 4 ∧
    (0x0a010203#32).setWidth 128 &&& (KeyMatch.mk .srcIp (.ipv4 0x0a000000#32 8)).word.mask =
      (KeyMatch.mk .srcIp (.ipv4 0x0a000000#32 8)).word.value := by
  intro fields bounds r
  have hr : r.check fields bounds = .ok () := by decide +kernel
  have hsame : (sampling 0x0a090909#32 0x34#32).check fields bounds = .ok () := by decide +kernel
  have hother : (sampling 0x0b000000#32 0x1234#32).check fields bounds = .ok () := by
    decide +kernel
  obtain ⟨hfound, himage⟩ := image_faithful hr hsame 4 4
  obtain ⟨-, himage'⟩ := image_faithful hr hother 4 4
  refine ⟨hr, himage.mpr ⟨rfl, rfl, rfl, ?_⟩, fun h => ?_, ?_⟩
  · exact .cons ⟨rfl, .ipv4 (by decide)⟩ (.cons ⟨rfl, .ipv6 (by decide)⟩
      (.cons ⟨rfl, .customBytes (by decide)⟩ .nil))
  · obtain ⟨-, -, -, hkeys⟩ := himage'.mp h
    obtain ⟨⟨-, ⟨hbits⟩⟩, -⟩ := List.forall₂_cons.mp hkeys
    exact absurd (hbits 7 (by decide)) (by decide)
  · obtain ⟨-, -, hword⟩ := hfound ⟨.srcIp, .ipv4 0x0a000000#32 8⟩ List.mem_cons_self
    have hbits : ∀ i < 8, (0x0a010203#32).getMsbD i = (0x0a000000#32).getMsbD i := by decide
    exact (hword 0x0a010203#32).mpr hbits

end AclPlane
