/-!
# Which requests have a partition key to route by, and the hash of a key

The classifier reads the operation inputs: whether key-route affinity applies to a
request, and the attribute maps in which its partition keys may be found. A hash map of
the source is a list in its iteration order where it is iterated, and a function where it
is only looked up.

A key is hashed as a type byte followed by its bytes, a number as it is written. The
MurmurHash3 function is the library's: it takes bytes to 128 bits.
-/

namespace AlternatorDriver

/-- An attribute value. Only the first three kinds can be partition keys. -/
inductive AttributeValue where
  | s (value : String)
  | n (value : String)
  | b (value : List UInt8)
  | other
  deriving DecidableEq

abbrev Attributes := String → Option AttributeValue

inductive ReturnValue where
  | none
  | allOld
  | updatedOld
  | allNew
  | updatedNew
  | unknown
  deriving DecidableEq

inductive AttributeAction where
  | add
  | delete
  | put
  | unknown
  deriving DecidableEq

structure AttributeValueUpdate where
  action : Option AttributeAction
  value : Option AttributeValue

/-- `expected` lists the attribute names of the legacy condition. -/
structure PutItemInput where
  tableName : Option String
  item : Option Attributes
  conditionExpression : Option String
  expected : Option (List String)
  returnValues : Option ReturnValue

structure DeleteItemInput where
  tableName : Option String
  key : Option Attributes
  conditionExpression : Option String
  expected : Option (List String)
  returnValues : Option ReturnValue

structure UpdateItemInput where
  tableName : Option String
  key : Option Attributes
  updateExpression : Option String
  conditionExpression : Option String
  expected : Option (List String)
  returnValues : Option ReturnValue
  attributeUpdates : Option (List (String × AttributeValueUpdate))

/-- The key of a delete request and the item of a put request, of which one is set. -/
structure WriteRequest where
  deleteRequest : Option Attributes
  putRequest : Option Attributes

structure BatchWriteItemInput where
  requestItems : Option (List (String × List WriteRequest))

/-- The type-erased input of an operation. -/
inductive Input where
  | putItem (input : PutItemInput)
  | updateItem (input : UpdateItemInput)
  | deleteItem (input : DeleteItemInput)
  | batchWriteItem (input : BatchWriteItemInput)
  | other

inductive KeyRouteAffinityType where
  | none
  | rmw
  | anyWrite
  deriving DecidableEq

/-- The operations that key-route affinity cares about. -/
inductive DynamoOp where
  | put (input : PutItemInput)
  | update (input : UpdateItemInput)
  | delete (input : DeleteItemInput)
  | batchWrite (input : BatchWriteItemInput)

structure PartitionKeyCandidate where
  tableName : String
  attributes : Attributes

def isNonempty (text : Option String) : Bool := text.any fun s => !s.isEmpty

/-- The check that `PutItem` and `DeleteItem` share. -/
def shouldApplyConditional (mode : KeyRouteAffinityType) (conditionExpression : Option String)
    (expected : Option (List String)) (returnValues : Option ReturnValue) : Bool :=
  if mode = .anyWrite then true
  else isNonempty conditionExpression || expected.any (fun e => !e.isEmpty) ||
    returnValues.any fun rv => rv ≠ .none

def shouldApplyPut (mode : KeyRouteAffinityType) (r : PutItemInput) : Bool :=
  shouldApplyConditional mode r.conditionExpression r.expected r.returnValues

def shouldApplyDelete (mode : KeyRouteAffinityType) (r : DeleteItemInput) : Bool :=
  shouldApplyConditional mode r.conditionExpression r.expected r.returnValues

/-- `UPDATED_NEW` can be computed from the expression alone, so it needs no read. -/
def shouldApplyUpdate (mode : KeyRouteAffinityType) (r : UpdateItemInput) : Bool :=
  if mode = .anyWrite then true
  else isNonempty r.updateExpression || isNonempty r.conditionExpression ||
    r.expected.any (fun e => !e.isEmpty) ||
    r.returnValues.any (fun rv => rv = .allOld ∨ rv = .updatedOld ∨ rv = .allNew) ||
    (r.attributeUpdates.getD []).any fun update =>
      update.2.action = some .add || (update.2.action = some .delete && update.2.value.isSome)

def batchWriteRequestAttributes (write : WriteRequest) : Option Attributes :=
  match write.deleteRequest with
  | some key => some key
  | none => write.putRequest

/-- The only candidate of a single-item operation. -/
def singleCandidate (tableName : Option String) (attributes : Option Attributes) :
    List PartitionKeyCandidate :=
  match tableName, attributes with
  | some tableName, some attributes => [⟨tableName, attributes⟩]
  | _, _ => []

namespace DynamoOp

def fromInput : Input → Option DynamoOp
  | .putItem r => some (.put r)
  | .updateItem r => some (.update r)
  | .deleteItem r => some (.delete r)
  | .batchWriteItem r => some (.batchWrite r)
  | .other => none

def shouldApply (op : DynamoOp) (mode : KeyRouteAffinityType) : Bool :=
  if mode = .none then false
  else match op with
    | .put r => shouldApplyPut mode r
    | .delete r => shouldApplyDelete mode r
    | .update r => shouldApplyUpdate mode r
    | .batchWrite _ => mode = .anyWrite

def partitionKeyCandidates : DynamoOp → List PartitionKeyCandidate
  | .put r => singleCandidate r.tableName r.item
  | .update r => singleCandidate r.tableName r.key
  | .delete r => singleCandidate r.tableName r.key
  | .batchWrite r => (r.requestItems.getD []).flatMap fun table =>
      table.2.filterMap fun write =>
        (batchWriteRequestAttributes write).map fun attributes => ⟨table.1, attributes⟩

def isBatchWrite : DynamoOp → Bool
  | .batchWrite _ => true
  | _ => false

end DynamoOp

abbrev Murmur3 := List UInt8 → BitVec 128

def typeString : UInt8 := 0x01
def typeNumber : UInt8 := 0x02
def typeBinary : UInt8 := 0x03

/-- The first 64 bits of the hash. Other types are not supported as partition keys. -/
def hashAttributeValue (murmur3X64128 : Murmur3) (value : AttributeValue) : Option (BitVec 64) :=
  let data : Option (List UInt8) := match value with
    | .s s => some (typeString :: s.toUTF8.toList)
    | .n n => some (typeNumber :: n.toUTF8.toList)
    | .b b => some (typeBinary :: b)
    | .other => none
  data.map fun data => (murmur3X64128 data).setWidth 64

end AlternatorDriver
