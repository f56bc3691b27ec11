import OpcUa.Library.LittleEndian

/-!
The data model of `ua_types.h`: status codes, the builtin types, the type
descriptions `UA_DataType`, and the values the binary codec works on.

A value is what the encoder finds behind its `void *`. Values of the builtin types
that hold no further described value are leaves; an ExtensionObject with decoded
content, a Variant, a DataValue and a structure hold other values.
-/

namespace OpcUa

open LittleEndian

/-! Status codes are combined with `|=` in the source, so they keep their bits. -/

abbrev StatusCode := BitVec 32

namespace StatusCode

def good : StatusCode := 0x00000000
def uncertainReferenceNotDeleted : StatusCode := 0x40BC0000
def badInternalError : StatusCode := 0x80020000
def badOutOfMemory : StatusCode := 0x80030000
def badResourceUnavailable : StatusCode := 0x80040000
def badCommunicationError : StatusCode := 0x80050000
def badEncodingError : StatusCode := 0x80060000
def badDecodingError : StatusCode := 0x80070000
def badEncodingLimitsExceeded : StatusCode := 0x80080000
def badTimeout : StatusCode := 0x800A0000
def badServiceUnsupported : StatusCode := 0x800B0000
def badShutdown : StatusCode := 0x800C0000
def badNothingToDo : StatusCode := 0x800F0000
def badTooManyOperations : StatusCode := 0x80100000
def badSecurityChecksFailed : StatusCode := 0x80130000
def badUserAccessDenied : StatusCode := 0x801F0000
def badSecureChannelIdInvalid : StatusCode := 0x80220000
def badSessionIdInvalid : StatusCode := 0x80250000
def badSessionClosed : StatusCode := 0x80260000
def badSessionNotActivated : StatusCode := 0x80270000
def badSubscriptionIdInvalid : StatusCode := 0x80280000
def badTimestampsToReturnInvalid : StatusCode := 0x802B0000
def badWaitingForInitialData : StatusCode := 0x80320000
def badNodeIdInvalid : StatusCode := 0x80330000
def badNodeIdUnknown : StatusCode := 0x80340000
def badIndexRangeInvalid : StatusCode := 0x80360000
def badIndexRangeNoData : StatusCode := 0x80370000
def badDataEncodingInvalid : StatusCode := 0x80380000
def badDataEncodingUnsupported : StatusCode := 0x80390000
def badNotReadable : StatusCode := 0x803A0000
def badNotWritable : StatusCode := 0x803B0000
def badNotSupported : StatusCode := 0x803D0000
def badNotFound : StatusCode := 0x803E0000
def badNotImplemented : StatusCode := 0x80400000
def badMonitoringModeInvalid : StatusCode := 0x80410000
def badMonitoredItemIdInvalid : StatusCode := 0x80420000
def badMonitoredItemFilterInvalid : StatusCode := 0x80430000
def badMonitoredItemFilterUnsupported : StatusCode := 0x80440000
def badFilterNotAllowed : StatusCode := 0x80450000
def badEventFilterInvalid : StatusCode := 0x80470000
def badContinuationPointInvalid : StatusCode := 0x804A0000
def badNoContinuationPoints : StatusCode := 0x804B0000
def badReferenceTypeIdInvalid : StatusCode := 0x804C0000
def badBrowseDirectionInvalid : StatusCode := 0x804D0000
def badSecurityModeRejected : StatusCode := 0x80540000
def badSecurityPolicyRejected : StatusCode := 0x80550000
def badTooManySessions : StatusCode := 0x80560000
def badParentNodeIdInvalid : StatusCode := 0x805B0000
def badReferenceNotAllowed : StatusCode := 0x805C0000
def badNodeIdExists : StatusCode := 0x805E0000
def badNodeClassInvalid : StatusCode := 0x805F0000
def badBrowseNameInvalid : StatusCode := 0x80600000
def badTypeDefinitionInvalid : StatusCode := 0x80630000
def badDuplicateReferenceNotAllowed : StatusCode := 0x80660000
def badNoMatch : StatusCode := 0x806F0000
def badWriteNotSupported : StatusCode := 0x80730000
def badTypeMismatch : StatusCode := 0x80740000
def badTooManySubscriptions : StatusCode := 0x80770000
def badTooManyPublishRequests : StatusCode := 0x80780000
def badNoSubscription : StatusCode := 0x80790000
def badSequenceNumberUnknown : StatusCode := 0x807A0000
def badMessageNotAvailable : StatusCode := 0x807B0000
def badTcpMessageTypeInvalid : StatusCode := 0x807E0000
def badTcpMessageTooLarge : StatusCode := 0x80800000
def badSecureChannelTokenUnknown : StatusCode := 0x80870000
def badInvalidArgument : StatusCode := 0x80AB0000
def badConnectionClosed : StatusCode := 0x80AE0000
def badResponseTooLarge : StatusCode := 0x80B90000
def badTooManyMonitoredItems : StatusCode := 0x80DB0000

theorem or_eq_good_iff (first second : StatusCode) :
    first ||| second = good ↔ first = good ∧ second = good := by
  simp only [good]
  exact BitVec.or_eq_zero_iff

end StatusCode

def int32Max : Nat := 2147483647
def uint16Max : Nat := 65535
def byteMax : Nat := 255

/-- `UA_String`: the data pointer is `NULL`, the sentinel of an empty array, or
points to `length` bytes. -/
inductive UaString where
  | null
  | empty
  | alloc (bytes : List Byte)
deriving DecidableEq, Repr

namespace UaString

def bytes : UaString → List Byte
  | null => []
  | empty => []
  | alloc content => content

def length (text : UaString) : Nat := text.bytes.length

def nonNull : UaString → Bool
  | null => false
  | _ => true

def beyondSentinel : UaString → Bool
  | alloc _ => true
  | _ => false

end UaString

/-- The eight bytes `data4` are one word, the byte at index 0 least significant. -/
structure Guid where
  data1 : BitVec 32
  data2 : BitVec 16
  data3 : BitVec 16
  data4 : BitVec 64
deriving DecidableEq, Repr

inductive NodeIdentifier where
  | numeric (value : BitVec 32)
  | string (value : UaString)
  | guid (value : Guid)
  | byteString (value : UaString)
deriving DecidableEq, Repr

structure NodeId where
  namespaceIndex : BitVec 16
  identifier : NodeIdentifier
deriving DecidableEq, Repr

def NodeId.null : NodeId := ⟨0, .numeric 0⟩

structure ExpandedNodeId where
  nodeId : NodeId
  namespaceUri : UaString
  serverIndex : BitVec 32
deriving DecidableEq, Repr

structure QualifiedName where
  namespaceIndex : BitVec 16
  name : UaString
deriving DecidableEq, Repr

structure LocalizedText where
  locale : UaString
  text : UaString
deriving DecidableEq, Repr

/-- The fields of `UA_DiagnosticInfo` beside the inner diagnostic info. A field and its
`has*` flag are one option. -/
structure DiagnosticFields where
  symbolicId : Option (BitVec 32)
  namespaceUri : Option (BitVec 32)
  localizedText : Option (BitVec 32)
  locale : Option (BitVec 32)
  additionalInfo : Option UaString
  innerStatusCode : Option StatusCode
deriving DecidableEq, Repr

/-- `UA_DiagnosticInfo`, `nested` with `hasInnerDiagnosticInfo` set. -/
inductive DiagnosticInfo where
  | plain (fields : DiagnosticFields)
  | nested (fields : DiagnosticFields) (innerDiagnosticInfo : DiagnosticInfo)
deriving DecidableEq, Repr

/-- The encodings of an ExtensionObject whose content is not decoded. -/
inductive EncodedBody where
  | noBody
  | byteString
  | xml
deriving DecidableEq, Repr

/-- Values of the builtin types that hold no value of a described type. Types with
the same entry in the jump tables share a constructor. -/
inductive Leaf where
  | boolean (raw : Byte)
  | byte (value : Byte)
  | uint16 (value : BitVec 16)
  | uint32 (value : BitVec 32)
  | uint64 (value : BitVec 64)
  | string (value : UaString)
  | guid (value : Guid)
  | nodeId (value : NodeId)
  | expandedNodeId (value : ExpandedNodeId)
  | qualifiedName (value : QualifiedName)
  | localizedText (value : LocalizedText)
  | extensionObject (encoding : EncodedBody) (typeId : NodeId) (body : UaString)
  | diagnosticInfo (value : DiagnosticInfo)
deriving DecidableEq, Repr

/-- `UA_DataTypeMember`. The padding before the member only concerns the memory
layout and is left out. -/
structure DataTypeMember where
  memberTypeIndex : Nat
  namespaceZero : Bool
  isArray : Bool
deriving DecidableEq, Repr

/-- `UA_DataType`. `custom` tells the array the description is stored in, which the
source finds at `&type[-type->typeIndex]`. -/
structure DataType where
  typeId : NodeId
  memSize : Nat
  typeIndex : Nat
  builtin : Bool
  overlayable : Bool
  binaryEncodingId : BitVec 16
  members : List DataTypeMember
  custom : Bool
deriving DecidableEq, Repr

/-- The fields of `UA_DataValue` beside the value; a field and its flag are one option. -/
structure DataValueInfo where
  status : Option StatusCode
  sourceTimestamp : Option (BitVec 64)
  sourcePicoseconds : Option (BitVec 16)
  serverTimestamp : Option (BitVec 64)
  serverPicoseconds : Option (BitVec 16)
deriving DecidableEq, Repr

/-- A value behind a `void *`. A Variant without a type is empty; with a type it is a
scalar, or an array that is undefined (`undefined`, only read when there are no
elements), empty, or has elements. `array` is an array member of a structure. -/
inductive Value where
  | leaf (content : Leaf)
  | extensionObject (noDelete : Bool) (type : DataType) (data : Value)
  | extensionObjectNull
  | dataValue (info : DataValueInfo) (hasValue : Bool) (value : Value)
  | variantEmpty
  | variantScalar (type : DataType) (data : Value) (arrayDimensions : List (BitVec 32))
  | variantArray (type : DataType) (undefined : Bool) (elements : List Value)
      (arrayDimensions : List (BitVec 32))
  | struct (members : List Value)
  | array (undefined : Bool) (elements : List Value)
deriving Repr

namespace Value

def isStruct : Value → Bool
  | struct _ => true
  | _ => false

def isVariant : Value → Bool
  | variantEmpty => true
  | variantScalar .. => true
  | variantArray .. => true
  | _ => false

end Value

@[elab_as_elim]
theorem Value.induct {motive : Value → Prop} (leaf : ∀ content, motive (.leaf content))
    (extensionObject : ∀ noDelete type data, motive data →
      motive (.extensionObject noDelete type data))
    (extensionObjectNull : motive .extensionObjectNull)
    (dataValue : ∀ info hasValue value, motive value → motive (.dataValue info hasValue value))
    (variantEmpty : motive .variantEmpty)
    (variantScalar : ∀ type data arrayDimensions, motive data →
      motive (.variantScalar type data arrayDimensions))
    (variantArray : ∀ type undefined elements arrayDimensions,
      (∀ element ∈ elements, motive element) →
      motive (.variantArray type undefined elements arrayDimensions))
    (struct : ∀ members, (∀ member ∈ members, motive member) → motive (.struct members))
    (array : ∀ undefined elements, (∀ element ∈ elements, motive element) →
      motive (.array undefined elements))
    (value : Value) : motive value := by
  refine Value.rec (motive_2 := fun elements => ∀ element ∈ elements, motive element)
    leaf extensionObject extensionObjectNull dataValue variantEmpty variantScalar
    variantArray struct array ?_ ?_ value
  · intro element member
    cases member
  · intro head tail headHolds tailHolds element member
    rcases List.mem_cons.mp member with rfl | later
    · exact headHolds
    · exact tailHolds element later

end OpcUa
