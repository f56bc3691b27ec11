import OpcUa.LeafRoundTrip

/-!
What `UA_decodeBinary` may look at and where it stops, for arbitrary bytes. The result
only depends on the bytes of the string. The position of what is accepted stays inside the
string unless the length field of an ExtensionObject is skipped that is not there in full.
-/

namespace OpcUa

open LittleEndian StatusCode

variable {env : TypeEnv} {type : DataType}
variable {input : Input} {typeId : NodeId}

/-! Bytes behind the end of the string do not matter. -/

structure Agree (first second : Input) : Prop where
  length : first.length = second.length
  env : first.env = second.env
  maxRecursion : first.maxRecursion = second.maxRecursion
  memory : first.memory.take first.length = second.memory.take first.length

section Agree

variable {first second : Input} (agree : Agree first second)

include agree

theorem memory_agree {pos count : Nat} (inside : pos + count ≤ first.length) :
    (first.memory.drop pos).take count = (second.memory.drop pos).take count := by
  have cut (memory : List Byte) :
      (memory.drop pos).take count = ((memory.take first.length).drop pos).take count := by
    rw [List.drop_take, List.take_take, Nat.min_eq_left (by omega)]
  rw [cut first.memory, cut second.memory, agree.memory]

theorem readBytes_agree : readBytes first = readBytes second := by
  funext count pos
  unfold readBytes
  rw [← agree.length]
  split
  · rfl
  · rw [memory_agree agree (by omega)]

theorem readWord_agree : readWord first = readWord second := by
  funext width bits pos
  rw [readWord, readWord, readBytes_agree agree]

theorem byteDecodeBinary_agree : byteDecodeBinary first = byteDecodeBinary second := by
  funext pos
  rw [byteDecodeBinary, byteDecodeBinary, readWord_agree agree]

theorem uint16DecodeBinary_agree : uint16DecodeBinary first = uint16DecodeBinary second := by
  funext pos
  rw [uint16DecodeBinary, uint16DecodeBinary, readWord_agree agree]

theorem uint32DecodeBinary_agree : uint32DecodeBinary first = uint32DecodeBinary second := by
  funext pos
  rw [uint32DecodeBinary, uint32DecodeBinary, readWord_agree agree]

theorem uint64DecodeBinary_agree : uint64DecodeBinary first = uint64DecodeBinary second := by
  funext pos
  rw [uint64DecodeBinary, uint64DecodeBinary, readWord_agree agree]

theorem arrayDecodeLength_agree : arrayDecodeLength first = arrayDecodeLength second := by
  funext memSize pos
  simp only [arrayDecodeLength, uint32DecodeBinary_agree agree, agree.length]

theorem stringDecodeBinary_agree : stringDecodeBinary first = stringDecodeBinary second := by
  funext pos
  simp only [stringDecodeBinary, arrayDecodeLength_agree agree, readBytes_agree agree]

theorem guidDecodeBinary_agree : guidDecodeBinary first = guidDecodeBinary second := by
  funext pos
  simp only [guidDecodeBinary, uint16DecodeBinary_agree agree, uint32DecodeBinary_agree agree,
    uint64DecodeBinary_agree agree]

theorem nodeIdDecodeBinary_agree : nodeIdDecodeBinary first = nodeIdDecodeBinary second := by
  funext pos
  simp only [nodeIdDecodeBinary, byteDecodeBinary_agree agree, uint16DecodeBinary_agree agree,
    uint32DecodeBinary_agree agree, stringDecodeBinary_agree agree, guidDecodeBinary_agree agree]

theorem expandedNodeIdDecodeBinary_agree :
    expandedNodeIdDecodeBinary first = expandedNodeIdDecodeBinary second := by
  funext pos
  unfold expandedNodeIdDecodeBinary
  rw [← agree.length]
  split
  · rfl
  · have peek : first.memory.getD pos 0 = second.memory.getD pos 0 := by
      have one : (first.memory.drop pos).take 1 = (second.memory.drop pos).take 1 :=
        memory_agree agree (by omega)
      have heads := congrArg List.head? one
      simp only [List.head?_take, Nat.one_ne_zero, ↓reduceIte, List.head?_drop] at heads
      rw [List.getD_eq_getElem?_getD, List.getD_eq_getElem?_getD, heads]
    simp only [peek, nodeIdDecodeBinary_agree agree, stringDecodeBinary_agree agree,
      uint32DecodeBinary_agree agree]

theorem diagnosticInfoDecodeBinary_agree :
    diagnosticInfoDecodeBinary first = diagnosticInfoDecodeBinary second := by
  have fields : diagnosticFieldsDecodeBinary first = diagnosticFieldsDecodeBinary second := by
    funext mask pos
    simp only [diagnosticFieldsDecodeBinary, uint32DecodeBinary_agree agree,
      stringDecodeBinary_agree agree]
  funext fuel
  induction fuel with
  | zero => rfl
  | succ fuel ih =>
    funext depth pos
    simp only [diagnosticInfoDecodeBinary, byteDecodeBinary_agree agree, fields, ih,
      agree.maxRecursion]

theorem arrayDecodeBinary_agree : arrayDecodeBinary first = arrayDecodeBinary second := by
  funext jump depth type pos
  simp only [arrayDecodeBinary, arrayDecodeLength_agree agree, readBytes_agree agree, agree.env]

theorem extensionObjectDecodeBinary_agree :
    extensionObjectDecodeBinary first = extensionObjectDecodeBinary second := by
  funext jump depth pos
  simp only [extensionObjectDecodeBinary, extensionObjectDecodeBinaryContent,
    nodeIdDecodeBinary_agree agree, byteDecodeBinary_agree agree, stringDecodeBinary_agree agree,
    agree.env]

theorem variantDecodeBinary_agree : variantDecodeBinary first = variantDecodeBinary second := by
  have dimensions : dimensionsDecodeBinary first = dimensionsDecodeBinary second := by
    funext pos
    simp only [dimensionsDecodeBinary, arrayDecodeLength_agree agree, readBytes_agree agree]
  funext jump depth pos
  simp only [variantDecodeBinary, variantDecodeBinaryUnwrap, byteDecodeBinary_agree agree,
    nodeIdDecodeBinary_agree agree, arrayDecodeBinary_agree agree, dimensions, agree.env,
    agree.maxRecursion]

theorem builtinDecodeBinary_agree : builtinDecodeBinary first = builtinDecodeBinary second := by
  funext jump fuel depth typeIndex pos
  simp only [builtinDecodeBinary, booleanDecodeBinary, qualifiedNameDecodeBinary,
    localizedTextDecodeBinary, dataValueDecodeBinary, byteDecodeBinary_agree agree,
    uint16DecodeBinary_agree agree, uint32DecodeBinary_agree agree, uint64DecodeBinary_agree agree,
    stringDecodeBinary_agree agree, guidDecodeBinary_agree agree, nodeIdDecodeBinary_agree agree,
    expandedNodeIdDecodeBinary_agree agree, diagnosticInfoDecodeBinary_agree agree,
    extensionObjectDecodeBinary_agree agree, variantDecodeBinary_agree agree, agree.maxRecursion]

theorem decodeBinaryInternal_agree : decodeBinaryInternal first = decodeBinaryInternal second := by
  have members : decodeMembers first = decodeMembers second := by
    funext jump depth type members
    induction members with
    | nil => rfl
    | cons member members ih =>
      funext pos
      simp only [decodeMembers, decodeMember, arrayDecodeBinary_agree agree, agree.env, ih]
  funext jump depth type pos
  simp only [decodeBinaryInternal, members, agree.maxRecursion]

theorem decodeBinaryJump_agree (fuel : Nat) :
    decodeBinaryJump first fuel = decodeBinaryJump second fuel := by
  induction fuel with
  | zero => rfl
  | succ fuel ih =>
    funext depth type pos
    simp only [decodeBinaryJump, ih, builtinDecodeBinary_agree agree,
      decodeBinaryInternal_agree agree]

theorem uaDecodeBinaryFrom_agree : uaDecodeBinaryFrom first = uaDecodeBinaryFrom second := by
  funext offset type
  simp only [uaDecodeBinaryFrom, decodeBinaryInternal_agree agree, decodeBinaryJump_agree agree,
    agree.maxRecursion]

end Agree

/-! The length fields of ExtensionObjects that are skipped. The predicates follow what is accepted:
one of the fields is not inside the string. -/

section Skips

variable (input : Input)

/-- The content of a known type, and where it begins behind the length field. -/
def knownContent (pos : Nat) : Option (DataType × Nat) :=
  let typeId := nodeIdDecodeBinary input pos
  let encoding := byteDecodeBinary input typeId.pos
  if encoding.value = 1 then
    (input.env.findDataTypeByBinaryInternal typeId.value).map fun type => (type, encoding.pos + 4)
  else none

variable (jump : Nat → DataType → Nat → Res Value) (skips : Nat → DataType → Nat → Prop)

def objectSkips (depth pos : Nat) : Prop :=
  ∃ type content, knownContent input pos = some (type, content) ∧
    (input.length < content ∨ skips depth type content)

def elementsSkip (decode : Nat → Res Value) (skips : Nat → Prop) : Nat → Nat → Prop
  | 0, _ => False
  | count + 1, pos => skips pos ∨ elementsSkip decode skips count (decode pos).pos

def arraySkips (depth : Nat) (type : DataType) (pos : Nat) : Prop :=
  match (arrayDecodeLength input type.memSize pos).value with
  | .elements count => type.overlayable = false ∧
      elementsSkip (jump depth type) (skips depth type) count
        (arrayDecodeLength input type.memSize pos).pos
  | _ => False

def variantSkips (depth pos : Nat) : Prop :=
  let encodingByte := byteDecodeBinary input pos
  let typeId := (encodingByte.value &&& 0x3F).toNat
  let type := input.env.types.getD (typeId - 1) booleanType
  if encodingByte.value = 0 then False
  else if testBit encodingByte.value 0x80 then
    arraySkips input jump skips (depth + 1) type encodingByte.pos
  else if typeId - 1 ≠ 21 then skips (depth + 1) type encodingByte.pos
  else
    objectSkips input skips (depth + 1) encodingByte.pos ∨
      knownContent input encodingByte.pos = none ∧
        skips (depth + 1) extensionObjectType encodingByte.pos

def dataValueSkips (depth pos : Nat) : Prop :=
  testBit (byteDecodeBinary input pos).value 0x01 = true ∧
    variantSkips input jump skips (depth + 1) (byteDecodeBinary input pos).pos

def memberSkips (depth : Nat) (memberType : DataType) (isArray : Bool) (pos : Nat) : Prop :=
  if isArray then arraySkips input jump skips depth memberType pos else skips depth memberType pos

def membersSkip (depth : Nat) (type : DataType) : List DataTypeMember → Nat → Prop
  | [], _ => False
  | member :: members, pos =>
    memberSkips input jump skips depth (input.env.memberType type member) member.isArray pos ∨
      membersSkip depth type members
        (decodeMember input jump depth (input.env.memberType type member) member.isArray pos).pos

def builtinSkips (depth typeIndex pos : Nat) : Prop :=
  match typeIndex with
  | 21 => objectSkips input skips depth pos
  | 22 => dataValueSkips input jump skips depth pos
  | 23 => variantSkips input jump skips depth pos
  | _ => False

end Skips

def jumpSkips (input : Input) : Nat → Nat → DataType → Nat → Prop
  | 0, _, _, _ => False
  | fuel + 1, depth, type, pos =>
    if type.builtin then
      builtinSkips input (decodeBinaryJump input fuel) (jumpSkips input fuel) depth type.typeIndex pos
    else
      membersSkip input (decodeBinaryJump input fuel) (jumpSkips input fuel) (depth + 1) type
        type.members pos

/-- The string ends in front of a length field that is skipped, or in it. -/
def SkipsBehind (env : TypeEnv) (src : List Byte) (offset : Nat) (type : DataType) : Prop :=
  let input : Input := ⟨src, src.length, env, encodingMaxRecursion⟩
  membersSkip input (decodeBinaryJump input (recursionBound encodingMaxRecursion))
    (jumpSkips input (recursionBound encodingMaxRecursion)) 1 type type.members offset

/-! Where a decoder stops: a success from inside the string ends behind it exactly if a length field
was skipped there. -/

section Bounds

variable {α β : Type} {input : Input} {pos : Nat} {skips skipsToo : Prop}
variable {first : Res α} {next : α → Nat → Res β}
variable {result : Res α}

def Tracks (input : Input) (pos : Nat) (skips : Prop) (result : Res α) : Prop :=
  result.status = good →
    pos ≤ result.pos ∧ (pos ≤ input.length → (input.length < result.pos ↔ skips))

def Keeps (input : Input) (pos : Nat) (result : Res α) : Prop := Tracks input pos False result

theorem Tracks.of_iff (tracks : Tracks input pos skips result) (same : skips ↔ skipsToo) :
    Tracks input pos skipsToo result := by
  rwa [← propext same]

theorem Tracks.map (tracks : Tracks input pos skips first) (convert : α → β) :
    Tracks input pos skips (first.map convert) := tracks

theorem Keeps.map (keeps : Keeps input pos first) (convert : α → β) :
    Keeps input pos (first.map convert) := keeps

theorem keeps_ok (value : α) : Keeps input pos (Res.ok value pos) := by
  intro _
  exact ⟨Nat.le_refl _, fun inside => by simpa [Res.ok] using inside⟩

theorem tracks_of_bad (bad : result.status ≠ good) : Tracks input pos skips result :=
  fun success => absurd success bad

theorem Tracks.unless {refused : Prop} [Decidable refused] {other : Res α}
    (tracks : Tracks input pos skips result) (bad : other.status ≠ good) :
    Tracks input pos skips (if refused then other else result) := by
  split
  · exact tracks_of_bad bad
  · exact tracks

theorem thenOr_good (success : (first.thenOr next).status = good) :
    first.status = good ∧ (next first.value first.pos).status = good ∧
      (first.thenOr next).pos = (next first.value first.pos).pos := by
  have both := (or_eq_good_iff _ _).mp success
  exact ⟨both.1, both.2, rfl⟩

section

variable (tracks : Tracks input pos skips first)
  (continues : first.status = good →
    Tracks input first.pos skipsToo (next first.value first.pos))
include tracks continues

theorem Tracks.followed (firstGood : first.status = good)
    (nextGood : (next first.value first.pos).status = good) :
    pos ≤ (next first.value first.pos).pos ∧ (pos ≤ input.length →
      (input.length < (next first.value first.pos).pos ↔ skips ∨ skipsToo)) := by
  obtain ⟨forward, ends⟩ := tracks firstGood
  obtain ⟨further, endsToo⟩ := continues firstGood nextGood
  refine ⟨Nat.le_trans forward further, fun inside => ?_⟩
  rw [← ends inside]
  by_cases behind : input.length < first.pos
  · exact ⟨fun _ => .inl behind, fun _ => Nat.lt_of_lt_of_le behind further⟩
  · rw [endsToo (Nat.le_of_not_lt behind)]
    exact ⟨.inr, fun either => either.resolve_left behind⟩

theorem Tracks.thenOr : Tracks input pos (skips ∨ skipsToo) (first.thenOr next) := by
  intro success
  obtain ⟨firstGood, nextGood, final⟩ := thenOr_good success
  exact tracks.followed continues firstGood nextGood

theorem Tracks.thenCheck [Inhabited β] :
    Tracks input pos (skips ∨ skipsToo) (first.thenCheck next) := by
  intro success
  obtain ⟨firstGood, nextGood, final, -⟩ := Res.thenCheck_good success
  rw [final]
  exact tracks.followed continues firstGood nextGood

end

theorem Tracks.finish [Inhabited β] (tracks : Tracks input pos skips first) (convert : α → β) :
    Tracks input pos skips (first.thenCheck fun value later => .ok (convert value) later) := by
  refine Tracks.of_iff (tracks.thenCheck fun _ => ?_) (or_false _).to_iff
  exact keeps_ok (convert first.value)

section

variable (keeps : Keeps input pos first)
  (continues : ∀ value later, Keeps input later (next value later))
include keeps continues

theorem Keeps.thenOr : Keeps input pos (first.thenOr next) :=
  (Tracks.thenOr keeps fun _ => continues first.value first.pos).of_iff (or_self_iff)

theorem Keeps.thenCheck [Inhabited β] : Keeps input pos (first.thenCheck next) :=
  (Tracks.thenCheck keeps fun _ => continues first.value first.pos).of_iff (or_self_iff)

end

theorem badDecodingError_ne_good : badDecodingError ≠ good := by decide

theorem badInternalError_ne_good : badInternalError ≠ good := by decide

theorem readBytes_keeps (count pos : Nat) : Keeps input pos (readBytes input count pos) := by
  unfold readBytes
  split
  · exact tracks_of_bad badDecodingError_ne_good
  · intro _
    simp only [Res.ok, iff_false]
    omega

theorem readWord_keeps (width bits pos : Nat) : Keeps input pos (readWord input width bits pos) :=
  (readBytes_keeps width pos).map _

theorem byteDecodeBinary_keeps (pos : Nat) : Keeps input pos (byteDecodeBinary input pos) :=
  readWord_keeps 1 8 pos

theorem decodeWhen_keeps (present : Bool) {decode : Nat → Res α}
    (keeps : ∀ later, Keeps input later (decode later)) (pos : Nat) :
    Keeps input pos (decodeWhen present decode pos) := by
  unfold decodeWhen
  split
  · exact (keeps pos).map some
  · exact keeps_ok none

theorem arrayDecodeLength_keeps (memSize pos : Nat) :
    Keeps input pos (arrayDecodeLength input memSize pos) := by
  refine (readWord_keeps 4 32 pos).thenCheck fun length later => ?_
  split
  · exact keeps_ok _
  · split
    · exact keeps_ok _
    · split
      · exact tracks_of_bad badDecodingError_ne_good
      · exact keeps_ok _

theorem stringDecodeBinary_keeps (pos : Nat) : Keeps input pos (stringDecodeBinary input pos) := by
  refine (arrayDecodeLength_keeps 1 pos).thenCheck fun length later => ?_
  cases length with
  | undefined => exact keeps_ok _
  | empty => exact keeps_ok _
  | elements count =>
    exact ((readBytes_keeps count later).thenCheck fun _ _ => keeps_ok _)

theorem guidDecodeBinary_keeps (pos : Nat) : Keeps input pos (guidDecodeBinary input pos) :=
  (readWord_keeps 4 32 pos).thenOr fun _ _ => ((readWord_keeps 2 16 _).thenOr fun _ _ =>
    ((readWord_keeps 2 16 _).thenOr fun _ _ => (readWord_keeps 8 64 _).map _))

theorem nodeIdDecodeBinary_keeps (pos : Nat) : Keeps input pos (nodeIdDecodeBinary input pos) := by
  refine (readWord_keeps 1 8 pos).thenCheck fun encodingByte later => ?_
  split
  · exact (readWord_keeps 1 8 _).map _
  · exact (readWord_keeps 1 8 _).thenOr fun _ _ => ((readWord_keeps 2 16 _).map _)
  · exact (readWord_keeps 2 16 _).thenOr fun _ _ => ((readWord_keeps 4 32 _).map _)
  · exact (readWord_keeps 2 16 _).thenOr fun _ _ => ((stringDecodeBinary_keeps _).map _)
  · exact (readWord_keeps 2 16 _).thenOr fun _ _ => ((guidDecodeBinary_keeps _).map _)
  · exact (readWord_keeps 2 16 _).thenOr fun _ _ => ((stringDecodeBinary_keeps _).map _)
  · exact tracks_of_bad badInternalError_ne_good

theorem expandedNodeIdDecodeBinary_keeps (pos : Nat) :
    Keeps input pos (expandedNodeIdDecodeBinary input pos) := by
  unfold expandedNodeIdDecodeBinary
  split
  · exact tracks_of_bad badDecodingError_ne_good
  · refine (nodeIdDecodeBinary_keeps pos).thenOr fun _ later => ?_
    refine (decodeWhen_keeps _ (fun at_ => (stringDecodeBinary_keeps at_)) later).thenOr
      fun _ later => ?_
    exact (decodeWhen_keeps _ (fun at_ => (readWord_keeps 4 32 at_)) later).map _

theorem qualifiedNameDecodeBinary_keeps (pos : Nat) :
    Keeps input pos (qualifiedNameDecodeBinary input pos) :=
  (readWord_keeps 2 16 pos).thenOr fun _ _ => ((stringDecodeBinary_keeps _).map _)

theorem localizedTextDecodeBinary_keeps (pos : Nat) :
    Keeps input pos (localizedTextDecodeBinary input pos) := by
  refine (readWord_keeps 1 8 pos).thenOr fun _ later => ?_
  refine (decodeWhen_keeps _ (fun at_ => (stringDecodeBinary_keeps at_)) later).thenOr
    fun _ later => ?_
  exact (decodeWhen_keeps _ (fun at_ => (stringDecodeBinary_keeps at_)) later).map _

theorem diagnosticFieldsDecodeBinary_keeps (mask : Byte) (pos : Nat) :
    Keeps input pos (diagnosticFieldsDecodeBinary input mask pos) := by
  have word (present : Bool) (at_ : Nat) :
      Keeps input at_ (decodeWhen present (uint32DecodeBinary input) at_) :=
    decodeWhen_keeps present (fun later => (readWord_keeps 4 32 later)) at_
  refine (word _ pos).thenOr fun _ later => (word _ later).thenOr fun _ later =>
    (word _ later).thenOr fun _ later => (word _ later).thenOr fun _ later => ?_
  refine (decodeWhen_keeps _ (fun at_ => (stringDecodeBinary_keeps at_)) later).thenOr
    fun _ later => ?_
  exact (word _ later).map _

theorem diagnosticInfoDecodeBinary_keeps (fuel depth pos : Nat) :
    Keeps input pos (diagnosticInfoDecodeBinary input fuel depth pos) := by
  induction fuel generalizing depth pos with
  | zero => exact tracks_of_bad badInternalError_ne_good
  | succ fuel ih =>
    refine (readWord_keeps 1 8 pos).thenCheck fun mask later => ?_
    have fields : Keeps input later (diagnosticFieldsDecodeBinary input mask later) :=
      diagnosticFieldsDecodeBinary_keeps mask later
    revert fields
    rcases diagnosticFieldsDecodeBinary input mask later with ⟨status, content, next, exhausted⟩
    intro fields
    simp only
    split
    · split
      · exact (tracks_of_bad badEncodingError_ne_good)
      · exact fields.thenOr fun _ at_ => ((ih (depth + 1) at_).map _)
    · exact fields

end Bounds

/-! The recursive decoders -/

section Recursive

variable {input : Input} {jump : Nat → DataType → Nat → Res Value}
variable {skips : Nat → DataType → Nat → Prop}

def JumpTracks (input : Input) (jump : Nat → DataType → Nat → Res Value)
    (skips : Nat → DataType → Nat → Prop) : Prop :=
  ∀ depth type pos, Tracks input pos (skips depth type pos) (jump depth type pos)

theorem decodeElements_tracks {decode : Nat → Res Value} {skips : Nat → Prop}
    (tracks : ∀ pos, Tracks input pos (skips pos) (decode pos)) (count pos : Nat) :
    Tracks input pos (elementsSkip decode skips count pos) (decodeElements decode count pos) := by
  induction count generalizing pos with
  | zero => exact keeps_ok []
  | succ count ih =>
    refine (tracks pos).thenCheck fun _ => ?_
    exact (ih (decode pos).pos).finish _

theorem dimensionsDecodeBinary_keeps (pos : Nat) :
    Keeps input pos (dimensionsDecodeBinary input pos) := by
  refine (arrayDecodeLength_keeps _ pos).thenCheck fun length later => ?_
  cases length with
  | undefined => exact keeps_ok _
  | empty => exact keeps_ok _
  | elements count => exact (readBytes_keeps _ later).thenCheck fun _ _ => keeps_ok _

theorem objectSkips_none {depth pos : Nat} (unknown : knownContent input pos = none) :
    ¬objectSkips input skips depth pos := by
  rintro ⟨type, content, known, -⟩
  rw [unknown] at known
  cases known

theorem objectSkips_some {depth pos content : Nat} {type : DataType}
    (known : knownContent input pos = some (type, content)) :
    objectSkips input skips depth pos ↔
      input.length < content ∨ skips depth type content := by
  constructor
  · rintro ⟨other, at_, found, outcome⟩
    rw [known] at found
    cases found
    exact outcome
  · exact fun outcome => ⟨type, content, known, outcome⟩

variable (tracks : JumpTracks input jump skips)
include tracks

theorem arrayDecodeBinary_tracks (depth : Nat) (type : DataType) (pos : Nat) :
    Tracks input pos (arraySkips input jump skips depth type pos)
      (arrayDecodeBinary input jump depth type pos) := by
  refine Tracks.of_iff (Tracks.thenCheck (arrayDecodeLength_keeps type.memSize pos) fun _ => ?_)
    (false_or _).to_iff
  rw [arraySkips]
  split
  · rename_i count elements
    rw [elements]
    dsimp only
    cases type.overlayable with
    | true =>
      exact Tracks.of_iff ((readBytes_keeps _ _).thenCheck fun _ _ => keeps_ok _) (by simp)
    | false =>
      exact ((decodeElements_tracks (tracks depth type) count _).map _).of_iff (by simp)
  · rename_i other
    cases length : (arrayDecodeLength input type.memSize pos).value with
    | undefined => exact keeps_ok _
    | empty => exact keeps_ok _
    | elements count => exact absurd length (other count)

theorem content_tracks (depth : Nat) (type : DataType) (pos content : Nat) (behind : pos ≤ content) :
    Tracks input pos (input.length < content ∨ skips depth type content)
      (jump depth type content) := by
  intro success
  obtain ⟨forward, ends⟩ := tracks depth type content success
  refine ⟨Nat.le_trans behind forward, fun _ => ?_⟩
  by_cases outside : input.length < content
  · exact ⟨fun _ => .inl outside, fun _ => Nat.lt_of_lt_of_le outside forward⟩
  · rw [ends (Nat.le_of_not_lt outside)]
    exact ⟨.inr, fun either => either.resolve_left outside⟩

theorem extensionObjectDecodeBinary_tracks (depth pos : Nat) :
    Tracks input pos (objectSkips input skips depth pos)
      (extensionObjectDecodeBinary input jump depth pos) := by
  have header : Keeps input pos ((nodeIdDecodeBinary input pos).thenOr fun typeId pos =>
      (byteDecodeBinary input pos).map fun encoding => (typeId, encoding)) :=
    (nodeIdDecodeBinary_keeps pos).thenOr fun _ later => (byteDecodeBinary_keeps later).map _
  refine Tracks.of_iff (Tracks.thenCheck header fun _ => ?_) (false_or _).to_iff
  simp only [Res.thenOr, Res.map]
  by_cases encoded : (byteDecodeBinary input (nodeIdDecodeBinary input pos).pos).value = 1
  · rw [encoded]
    change Tracks input _ _ (extensionObjectDecodeBinaryContent input jump depth
      (nodeIdDecodeBinary input pos).value _)
    rw [extensionObjectDecodeBinaryContent]
    cases known : input.env.findDataTypeByBinaryInternal (nodeIdDecodeBinary input pos).value with
    | none =>
      have unknown : knownContent input pos = none := by simp [knownContent, encoded, known]
      exact Tracks.of_iff ((stringDecodeBinary_keeps _).map _)
        (iff_of_false id (objectSkips_none unknown))
    | some type =>
      have content : knownContent input pos = some (type,
          (byteDecodeBinary input (nodeIdDecodeBinary input pos).pos).pos + 4) := by
        simp [knownContent, encoded, known]
      exact ((content_tracks tracks depth type _ _ (Nat.le_add_right _ 4)).map _).of_iff
        (objectSkips_some content).symm
  · have unknown : knownContent input pos = none := if_neg encoded
    refine Tracks.of_iff (?_ : Keeps input _ _) (iff_of_false id (objectSkips_none unknown))
    split
    · rename_i one
      exact absurd (BitVec.eq_of_toNat_eq one) encoded
    · exact keeps_ok _
    · exact (stringDecodeBinary_keeps _).map fun body => Value.leaf (.extensionObject .xml _ body)
    · exact tracks_of_bad badDecodingError_ne_good

theorem variantDecodeBinaryUnwrap_tracks (depth pos : Nat) :
    Tracks input pos
      (objectSkips input skips depth pos ∨
        knownContent input pos = none ∧ skips depth extensionObjectType pos)
      (variantDecodeBinaryUnwrap input jump depth pos) := by
  intro success
  obtain ⟨typeIdGood, restGood, final, -⟩ := Res.thenCheck_good success
  obtain ⟨encodingGood, contentGood, contentFinal, -⟩ := Res.thenCheck_good restGood
  have typeIdForward := (nodeIdDecodeBinary_keeps pos typeIdGood).1
  have encodingForward := (byteDecodeBinary_keeps _ encodingGood).1
  rw [variantDecodeBinaryUnwrap, final, contentFinal]
  revert contentGood
  simp only
  split
  next type found =>
    split at found
    next one =>
      have encoded : (byteDecodeBinary input (nodeIdDecodeBinary input pos).pos).value = 1 :=
        BitVec.eq_of_toNat_eq one
      have content : knownContent input pos = some (type,
          (byteDecodeBinary input (nodeIdDecodeBinary input pos).pos).pos + 4) := by
        simp [knownContent, encoded, found]
      have ends := content_tracks tracks depth type pos _
        (Nat.le_trans (Nat.le_trans typeIdForward encodingForward) (Nat.le_add_right _ 4))
      exact (ends.of_iff (by simp [objectSkips_some content, content])).map _
    · cases found
  next found =>
    have unknown : knownContent input pos = none := by
      rw [knownContent]
      split
      · rename_i encoded
        rw [encoded] at found
        simpa using found
      · rfl
    intro contentGood
    rw [unknown, eq_self, true_and, or_iff_right (objectSkips_none unknown)]
    exact tracks depth extensionObjectType pos contentGood

theorem variantDecodeBinary_tracks (depth pos : Nat) :
    Tracks input pos (variantSkips input jump skips depth pos)
      (variantDecodeBinary input jump depth pos) := by
  refine Tracks.of_iff (Tracks.thenCheck (byteDecodeBinary_keeps pos) fun _ => ?_)
    (false_or _).to_iff
  unfold variantSkips
  dsimp only
  by_cases empty : (byteDecodeBinary input pos).value = 0
  · rw [if_pos empty, if_pos empty]
    exact keeps_ok _
  rw [if_neg empty, if_neg empty]
  refine Tracks.unless (Tracks.unless (Tracks.unless ?_ badEncodingError_ne_good)
    badDecodingError_ne_good) badDecodingError_ne_good
  split
  · exact Tracks.of_iff ((arrayDecodeBinary_tracks tracks (depth + 1) _ _).thenOr fun _ =>
      (decodeWhen_keeps _ dimensionsDecodeBinary_keeps _).map _) (or_false _).to_iff
  · split
    · exact (tracks (depth + 1) _ _).map _
    · exact variantDecodeBinaryUnwrap_tracks tracks (depth + 1) _

theorem dataValueDecodeBinary_tracks (depth pos : Nat) :
    Tracks input pos (dataValueSkips input jump skips depth pos)
      (dataValueDecodeBinary input jump depth pos) := by
  refine Tracks.of_iff (Tracks.thenCheck (byteDecodeBinary_keeps pos) fun _ => ?_)
    (false_or _).to_iff
  have value : Tracks input (byteDecodeBinary input pos).pos (dataValueSkips input jump skips depth pos)
      (decodeWhen (testBit (byteDecodeBinary input pos).value 0x01)
        (variantDecodeBinary input jump (depth + 1)) (byteDecodeBinary input pos).pos) := by
    rw [dataValueSkips, decodeWhen]
    split
    · rename_i present
      exact ((variantDecodeBinary_tracks tracks (depth + 1) _).map some).of_iff
        (and_iff_right present).symm
    · rename_i absent
      exact Tracks.of_iff (keeps_ok none) (iff_of_false id fun both => absent both.1)
  refine Tracks.unless (Tracks.of_iff (value.thenOr fun _ => ?_) (or_false _).to_iff)
    badEncodingError_ne_good
  refine (decodeWhen_keeps _ (readWord_keeps 4 32) _).thenOr fun _ later => ?_
  refine (decodeWhen_keeps _ (readWord_keeps 8 64) later).thenOr fun _ later => ?_
  refine (decodeWhen_keeps _ (readWord_keeps 2 16) later).thenOr fun _ later => ?_
  refine (decodeWhen_keeps _ (readWord_keeps 8 64) later).thenOr fun _ later => ?_
  exact (decodeWhen_keeps _ (readWord_keeps 2 16) later).map _

theorem builtinDecodeBinary_tracks (fuel depth typeIndex pos : Nat) :
    Tracks input pos (builtinSkips input jump skips depth typeIndex pos)
      (builtinDecodeBinary input jump fuel depth typeIndex pos) := by
  unfold builtinDecodeBinary
  split
  case h_22 => exact extensionObjectDecodeBinary_tracks tracks depth pos
  case h_23 => exact dataValueDecodeBinary_tracks tracks depth pos
  case h_24 => exact variantDecodeBinary_tracks tracks depth pos
  case h_26 => exact tracks_of_bad badInternalError_ne_good
  all_goals refine Tracks.map ?_ _
  · exact (readWord_keeps 1 8 pos).map _
  · exact readWord_keeps 1 8 pos
  · exact readWord_keeps 1 8 pos
  · exact readWord_keeps 2 16 pos
  · exact readWord_keeps 2 16 pos
  · exact readWord_keeps 4 32 pos
  · exact readWord_keeps 4 32 pos
  · exact readWord_keeps 4 32 pos
  · exact readWord_keeps 4 32 pos
  · exact readWord_keeps 8 64 pos
  · exact readWord_keeps 8 64 pos
  · exact readWord_keeps 8 64 pos
  · exact readWord_keeps 8 64 pos
  · exact stringDecodeBinary_keeps pos
  · exact stringDecodeBinary_keeps pos
  · exact stringDecodeBinary_keeps pos
  · exact guidDecodeBinary_keeps pos
  · exact nodeIdDecodeBinary_keeps pos
  · exact expandedNodeIdDecodeBinary_keeps pos
  · exact qualifiedNameDecodeBinary_keeps pos
  · exact localizedTextDecodeBinary_keeps pos
  · exact diagnosticInfoDecodeBinary_keeps fuel depth pos

theorem decodeMembers_tracks (depth : Nat) (type : DataType) (members : List DataTypeMember)
    (pos : Nat) :
    Tracks input pos (membersSkip input jump skips depth type members pos)
      (decodeMembers input jump depth type members pos) := by
  induction members generalizing pos with
  | nil => exact keeps_ok []
  | cons member members ih =>
    refine Tracks.thenCheck ?_ fun _ => (ih _).finish _
    rw [memberSkips, decodeMember]
    split
    · exact (arrayDecodeBinary_tracks tracks depth _ pos).map _
    · exact tracks depth _ pos

theorem decodeBinaryInternal_tracks (depth : Nat) (type : DataType) (pos : Nat) :
    Tracks input pos (membersSkip input jump skips (depth + 1) type type.members pos)
      (decodeBinaryInternal input jump depth type pos) := by
  unfold decodeBinaryInternal
  split
  · exact tracks_of_bad badEncodingError_ne_good
  · exact (decodeMembers_tracks tracks (depth + 1) type type.members pos).map _

end Recursive

theorem decodeBinaryJump_tracks (input : Input) (fuel : Nat) :
    JumpTracks input (decodeBinaryJump input fuel) (jumpSkips input fuel) := by
  induction fuel with
  | zero => exact fun depth type pos => tracks_of_bad badInternalError_ne_good
  | succ fuel ih =>
    intro depth type pos
    rw [decodeBinaryJump, jumpSkips]
    split
    · exact builtinDecodeBinary_tracks ih fuel depth type.typeIndex pos
    · exact decodeBinaryInternal_tracks ih depth type pos

/-- What a call of `UA_decodeBinary` promises: bytes behind the end are not looked at, a
success stays inside the string, a failure resets the destination and keeps the offset. -/
structure DecodesSafely (env : TypeEnv) (src : List Byte) (offset : Nat) (type : DataType) :
    Prop where
  unread : ∀ behind, uaDecodeBinaryFrom ⟨src ++ behind, src.length, env, encodingMaxRecursion⟩
    offset type = uaDecodeBinary env src offset type
  inside : (uaDecodeBinary env src offset type).status = good →
    offset ≤ (uaDecodeBinary env src offset type).offset ∧
      (uaDecodeBinary env src offset type).offset ≤ src.length
  reset : (uaDecodeBinary env src offset type).status ≠ good →
    (uaDecodeBinary env src offset type).dst = none ∧
      (uaDecodeBinary env src offset type).offset = offset

/-- The promise is kept exactly if what is accepted does not end in front of a length field that is
skipped, or in it. -/
theorem uaDecodeBinary_safe_iff (env : TypeEnv) (src : List Byte) (offset : Nat) (type : DataType)
    (start : offset ≤ src.length) :
    DecodesSafely env src offset type ↔
      ((uaDecodeBinary env src offset type).status = good → ¬SkipsBehind env src offset type) := by
  have tracks := decodeBinaryInternal_tracks
    (decodeBinaryJump_tracks ⟨src, src.length, env, encodingMaxRecursion⟩
      (recursionBound encodingMaxRecursion)) 0 type offset
  have unread (behind : List Byte) : uaDecodeBinaryFrom
      ⟨src ++ behind, src.length, env, encodingMaxRecursion⟩ offset type =
        uaDecodeBinary env src offset type := by
    have agree : Agree ⟨src ++ behind, src.length, env, encodingMaxRecursion⟩
        ⟨src, src.length, env, encodingMaxRecursion⟩ := ⟨rfl, rfl, rfl, by simp⟩
    rw [uaDecodeBinary, uaDecodeBinaryFrom_agree agree]
  have reset : (uaDecodeBinary env src offset type).status ≠ good →
      (uaDecodeBinary env src offset type).dst = none ∧
        (uaDecodeBinary env src offset type).offset = offset := by
    simp only [uaDecodeBinary, uaDecodeBinaryFrom]
    split
    · exact fun failure => absurd rfl failure
    · exact fun _ => ⟨rfl, rfl⟩
  have ends (success : (uaDecodeBinary env src offset type).status = good) :
      offset ≤ (uaDecodeBinary env src offset type).offset ∧
        (src.length < (uaDecodeBinary env src offset type).offset ↔
          SkipsBehind env src offset type) := by
    revert success
    simp only [uaDecodeBinary, uaDecodeBinaryFrom]
    split
    next success => exact fun _ => ⟨(tracks success).1, (tracks success).2 start⟩
    next failure => exact fun success => absurd success failure
  constructor
  · intro safe success skips
    exact absurd ((ends success).2.mpr skips) (Nat.not_lt_of_le (safe.inside success).2)
  · intro whole
    refine ⟨unread, fun success => ⟨(ends success).1, ?_⟩, reset⟩
    exact Nat.le_of_not_lt fun behind => whole success ((ends success).2.mp behind)

/-- With its length field the same object ends inside. -/
theorem filterOperand_safe :
    DecodesSafely sampleEnv [0x01, 0x00, 0x4F, 0x02, 0x01, 0, 0, 0, 0] 0 extensionObjectType := by
  refine (uaDecodeBinary_safe_iff sampleEnv _ 0 extensionObjectType (Nat.zero_le _)).mpr ?_
  rintro - (⟨type, content, known, behind | inner⟩ | nothing)
  · cases known
    exact absurd behind (by decide)
  · cases known
    exact inner
  · exact nothing

/-- FilterOperand has no members: the offset is moved four bytes behind the end. -/
theorem filterOperand_beyond :
    ¬DecodesSafely sampleEnv [0x01, 0x00, 0x4F, 0x02, 0x01] 0 extensionObjectType := by
  intro safe
  have result : (uaDecodeBinary sampleEnv [0x01, 0x00, 0x4F, 0x02, 0x01] 0
      extensionObjectType).status = good ∧
      (uaDecodeBinary sampleEnv [0x01, 0x00, 0x4F, 0x02, 0x01] 0 extensionObjectType).offset = 9 := by
    decide
  have inside := (safe.inside result.1).2
  rw [result.2] at inside
  simp at inside

end OpcUa
