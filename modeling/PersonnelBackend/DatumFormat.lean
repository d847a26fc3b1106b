import PersonnelBackend.PackedSequence
import PersonnelBackend.PrimaryKeys

/-! The bytes the server keeps documents in (`serialize_datum.cc`, `varint.cc`).
Arrays and objects carry a table of the offsets of their elements, whose entries
are as wide as the size of the whole asks for. A value that has been read stays in
its buffer: its elements are looked up there when they are asked for, and it is
written out again by copying. -/
namespace PersonnelBackend.Datums
open Framing Packed
open PrimaryKeys (Double)

/-! ### Numbers and strings -/

inductive ArchiveResult
  | sockEof
  | rangeError
  deriving DecidableEq

abbrev Read (α : Type) := StateT (List UInt8) (Except ArchiveResult) α

/-- What `guarantee_deserialization` makes of a read: the server stops if it fails. -/
def Read.guaranteed {α : Type} (read : Read α) (s : List UInt8) : Option (α × List UInt8) :=
  (read s).toOption

def forceRead (n : ℕ) : Read (List UInt8) := fun s =>
  if s.length < n then .error .sockEof else .ok (s.take n, s.drop n)

def serializeVarintWith : ℕ → ℕ → List UInt8
  | 0, _ => []
  | fuel + 1, n =>
    if 128 ≤ n then UInt8.ofNat (n &&& 127 ||| 128) :: serializeVarintWith fuel (n >>> 7)
    else [UInt8.ofNat n]

/-- Ten digits of seven bits are enough for 64 bits. -/
def serializeVarint (value : ℕ) : List UInt8 := serializeVarintWith 10 value

def digitsLeft : ℕ → ℕ → ℕ
  | 0, _ => 0
  | fuel + 1, value => if 0 < value then digitsLeft fuel (value / 128) + 1 else 0

def varintSerializedSize (value : ℕ) : ℕ := 1 + digitsLeft 9 (value / 128)

def deserializeVarintFrom (offset value : ℕ) : List UInt8 → Except ArchiveResult (ℕ × List UInt8)
  | [] => .error .sockEof
  | b :: s =>
    let x := b.toNat &&& 127
    let value := value ||| x <<< offset
    if b.toNat &&& 128 = 0 then
      if offset = 63 ∧ 1 < x then .error .rangeError else .ok (value, s)
    else if offset = 63 then .error .rangeError
    else deserializeVarintFrom (offset + 7) value s

def deserializeVarint : Read ℕ := deserializeVarintFrom 0 0

def stringSerializedSize (s : List UInt8) : ℕ := varintSerializedSize s.length + s.length

def serializeString (s : List UInt8) : List UInt8 := serializeVarint s.length ++ s

def deserializeString : Read (List UInt8) := do
  let sz ← deserializeVarint
  forceRead sz

/-- The string a `datum_string_t` on this buffer stands for. -/
def stringAt (buf : List UInt8) : Option (List UInt8) := do
  let (size, _) ← deserializeVarint.guaranteed buf
  let dataOffset := varintSerializedSize size
  if dataOffset + size ≤ buf.length then some ((buf.drop dataOffset).take size) else none

def one : ℕ := 2 ^ (1023 + 52 - 1)

def numberAsInteger (d : Double) : Option ℕ :=
  let n := BinaryFloat.units 52 d.magnitude
  if n ≤ 2 ^ 53 * one then
    let i := n / one
    if i * one = n then some i else none
  else none

def doubleOfBits (bits : ℕ) : Option Double :=
  if h : (BitVec.ofNat 64 bits).toNat % 2 ^ 63 < 0x7FF0000000000000 then
    some ⟨BitVec.ofNat 64 bits, h⟩
  else none

def doubleOfInteger (negative : Bool) (i : ℕ) : Option Double :=
  doubleOfBits ((if negative then 2 ^ 63 else 0) + BinaryFloat.ofNat 52 1023 i)

/-! ### Values -/

inductive SerializedType
  | rArray | rBool | rNull | double | rObject | rStr | intNegative | intPositive |
    rBinary | bufRArray
  | bufRObject | uninitialized | minval | maxval
  deriving DecidableEq

namespace SerializedType

def code : SerializedType → UInt8
  | .rArray => 1
  | .rBool => 2
  | .rNull => 3
  | .double => 4
  | .rObject => 5
  | .rStr => 6
  | .intNegative => 7
  | .intPositive => 8
  | .rBinary => 9
  | .bufRArray => 10
  | .bufRObject => 11
  | .uninitialized => 12
  | .minval => 13
  | .maxval => 14

def all : List SerializedType :=
  [.rArray, .rBool, .rNull, .double, .rObject, .rStr, .intNegative, .intPositive, .rBinary,
    .bufRArray, .bufRObject, .uninitialized, .minval, .maxval]

def ofCode (b : UInt8) : Option SerializedType := all.find? fun t => t.code = b

lemma ofCode_code (t : SerializedType) : ofCode t.code = some t := by cases t <;> rfl

end SerializedType

def deserializeType : Read SerializedType
  | [] => .error .sockEof
  | b :: s =>
    match SerializedType.ofCode b with
    | none => .error .rangeError
    | some type => .ok (type, s)

inductive Scalar
  | uninitialized
  | minval
  | maxval
  | null
  | bool (value : Bool)
  | num (value : Double)
  | str (value : List UInt8)
  | binary (value : List UInt8)

namespace Scalar

def serializedSize : Scalar → ℕ
  | .bool _ => 1 + 1
  | .num d =>
    1 + match numberAsInteger d with
      | some i => varintSerializedSize i
      | none => 8
  | .str s => 1 + stringSerializedSize s
  | .binary s => 1 + stringSerializedSize s
  | _ => 1

/-- Negative zero is written as a negative integer. -/
def serialize : Scalar → List UInt8
  | .uninitialized => [SerializedType.uninitialized.code]
  | .minval => [SerializedType.minval.code]
  | .maxval => [SerializedType.maxval.code]
  | .null => [SerializedType.rNull.code]
  | .bool b => SerializedType.rBool.code :: [if b then 1 else 0]
  | .num d =>
    match numberAsInteger d with
    | some i =>
      (if d.bits.msb then SerializedType.intNegative else SerializedType.intPositive).code ::
        serializeVarint i
    | none => SerializedType.double.code :: leBytes 8 d.bits.toNat
  | .str s => SerializedType.rStr.code :: serializeString s
  | .binary s => SerializedType.rBinary.code :: serializeString s

end Scalar

/-- A value as the server holds it: built in memory, or in the buffer it was read
into, which is given from where the value begins. -/
inductive Datum
  | scalar (value : Scalar)
  | array (items : List Datum)
  | object (pairs : List (List UInt8 × Datum))
  | bufArray (buf : List UInt8)
  | bufObject (buf : List UInt8)

/-! ### Reading -/

def deserializeBool : Read Bool
  | [] => .error .sockEof
  | b :: s => if b = 0 then .ok (false, s) else if b = 1 then .ok (true, s) else .error .rangeError

def inRange {α : Type} : Option α → Read α
  | none => fun _ => .error .rangeError
  | some a => pure a

-- the integer is a double before it is compared: `2 ^ 53 + 1` is read as `2 ^ 53`
def deserializeInteger (negative : Bool) : Read Datum := do
  let unsignedValue := BinaryFloat.roundEven 52 (← deserializeVarint)
  let d ← inRange (if 2 ^ 53 < unsignedValue then none else doubleOfInteger negative unsignedValue)
  pure (.scalar (.num d))

/-- The buffer of an array or object, with its size written before it again. -/
def deserializeBuffer : Read (List UInt8) := do
  let serSize ← deserializeVarint
  let serSizeSz := varintSerializedSize serSize
  inRange (if 2 ^ 63 - 1 < serSize + serSizeSz then none else some ())
  let data ← forceRead serSize
  pure (serializeVarint serSize ++ data)

def readMany {α : Type} (read : Read α) : ℕ → Read (List α)
  | 0 => pure []
  | n + 1 => do
    let a ← read
    let rest ← readMany read n
    pure (a :: rest)

/-- What follows the type. Only the arrays and objects of old versions are read
element by element. -/
def deserializeBody (element : Read Datum) : SerializedType → Read Datum
  | .uninitialized => pure (.scalar .uninitialized)
  | .minval => pure (.scalar .minval)
  | .maxval => pure (.scalar .maxval)
  | .rNull => pure (.scalar .null)
  | .rBool => do
    let b ← deserializeBool
    pure (.scalar (.bool b))
  | .double => do
    let bytes ← forceRead 8
    let d ← inRange (doubleOfBits (leNat bytes))
    pure (.scalar (.num d))
  | .intNegative => deserializeInteger true
  | .intPositive => deserializeInteger false
  | .rStr => do
    let s ← deserializeString
    pure (.scalar (.str s))
  | .rBinary => do
    let s ← deserializeString
    pure (.scalar (.binary s))
  | .rArray => do
    let sz ← deserializeVarint
    let items ← readMany element sz
    pure (.array items)
  | .rObject => do
    let sz ← deserializeVarint
    let pairs ← readMany (do
      let key ← deserializeString
      let value ← element
      pure (key, value)) sz
    pure (.object pairs)
  | .bufRArray => do
    let buf ← deserializeBuffer
    pure (.bufArray buf)
  | .bufRObject => do
    let buf ← deserializeBuffer
    pure (.bufObject buf)

def deserializeWith : ℕ → Read Datum
  | 0 => fun _ => .error .rangeError
  | fuel + 1 => do
    let type ← deserializeType
    deserializeBody (deserializeWith fuel) type

/-- The function `datum_deserialize`. Every level takes a byte at least. -/
def deserialize : Read Datum := fun s => deserializeWith (s.length + 1) s

/-! ### Elements in a buffer -/

inductive OffsetSize
  | u8 | u16 | u32 | u64
  deriving DecidableEq

def OffsetSize.bytes : OffsetSize → ℕ
  | .u8 => 1
  | .u16 => 2
  | .u32 => 4
  | .u64 => 8

def getOffsetSizeFromInnerSize (innerSize : ℕ) : OffsetSize :=
  if innerSize ≤ 0xFF then .u8
  else if innerSize ≤ 0xFFFF then .u16
  else if innerSize ≤ 0xFFFFFFFF then .u32
  else .u64

def readInnerSerializedSize (buf : List UInt8) : Option ℕ := do
  let (sz, _) ← deserializeVarint.guaranteed buf
  some sz

def getArraySize (buf : List UInt8) : Option ℕ := do
  let (_, s) ← deserializeVarint.guaranteed buf
  let (numElements, _) ← deserializeVarint.guaranteed s
  some numElements

def getElementOffset (buf : List UInt8) (index : ℕ) : Option ℕ := do
  let (serSize, s) ← deserializeVarint.guaranteed buf
  let size := (getOffsetSizeFromInnerSize serSize).bytes
  let (numElements, s) ← deserializeVarint.guaranteed s
  if index < numElements then
    let tell := buf.length - s.length
    let dataOffset := tell + (numElements - 1) * size
    if index = 0 then some dataOffset
    else
      let elementOffsetOffset := tell + (index - 1) * size
      if elementOffsetOffset ≤ buf.length then do
        let (offset, _) ← (forceRead size).guaranteed (buf.drop elementOffsetOffset)
        some (dataOffset + leNat offset)
      else none
  else none

/-- Values with elements stay in the buffer. -/
def deserializeFromBuf (buf : List UInt8) (atOffset : ℕ) : Option Datum :=
  if atOffset ≤ buf.length then do
    let (type, s) ← deserializeType.guaranteed (buf.drop atOffset)
    match type with
    | .rStr => do
      let value ← stringAt s
      some (.scalar (.str value))
    | .rBinary => do
      let value ← stringAt s
      some (.scalar (.binary value))
    | .bufRArray => some (.bufArray s)
    | .bufRObject => some (.bufObject s)
    | _ => do
      let (datum, _) ← deserialize.guaranteed (buf.drop atOffset)
      some datum
  else none

def deserializePairFromBuf (buf : List UInt8) (atOffset : ℕ) : Option (List UInt8 × Datum) :=
  if atOffset ≤ buf.length then do
    let key ← stringAt (buf.drop atOffset)
    let value ← deserializeFromBuf buf (atOffset + stringSerializedSize key)
    some (key, value)
  else none

namespace Datum

def arrSize : Datum → Option ℕ
  | .array items => some items.length
  | .bufArray buf => getArraySize buf
  | _ => none

def uncheckedGet : Datum → ℕ → Option Datum
  | .array items, index => items[index]?
  | .bufArray buf, index => do
    let offset ← getElementOffset buf index
    deserializeFromBuf buf offset
  | _, _ => none

def objSize : Datum → Option ℕ
  | .object pairs => some pairs.length
  | .bufObject buf => getArraySize buf
  | _ => none

def uncheckedGetPair : Datum → ℕ → Option (List UInt8 × Datum)
  | .object pairs, index => pairs[index]?
  | .bufObject buf, index => do
    let offset ← getElementOffset buf index
    deserializePairFromBuf buf offset
  | _, _ => none

/-- Binary search on top of `unchecked_get_pair`; `some none` if there is no such
field. -/
def getField (v : Datum) (key : List UInt8) : Option (Option Datum) := do
  let size ← v.objSize
  bisect (fun i => (v.uncheckedGetPair i).map fun pair =>
    (List.compareLex compare key pair.1, pair.2))
    (size + 1) 0 size

/-- The buffer of a value that has not left it, as `get_buf_ref`. -/
def getBufRef : Datum → Option (List UInt8)
  | .bufArray buf => some buf
  | .bufObject buf => some buf
  | _ => none

def members : Datum → Option (List (Option (List UInt8) × Datum))
  | .array items => some (items.map fun item => (none, item))
  | .object pairs => some (pairs.map fun pair => (some pair.1, pair.2))
  | .bufArray buf => do
    let size ← getArraySize buf
    (List.range size).mapM fun i => (uncheckedGet (.bufArray buf) i).map fun item => (none, item)
  | .bufObject buf => do
    let size ← getArraySize buf
    (List.range size).mapM fun i => (uncheckedGetPair (.bufObject buf) i).map fun pair =>
      (some pair.1, pair.2)
  | .scalar _ => none

end Datum

/-! ### Writing -/

inductive SizeTree
  | node (size : ℕ) (children : List SizeTree)

namespace SizeTree

def size : SizeTree → ℕ
  | .node size _ => size

def children : SizeTree → List SizeTree
  | .node _ children => children

end SizeTree

/-- A wider offset, if the whole would be larger than the limit. -/
def raiseOffset (total : OffsetSize → ℕ) (limit : ℕ) (next current : OffsetSize) : OffsetSize :=
  if limit < total current then next else current

/-- Offsets of 8 bits are tried first. -/
def chooseOffset (total : OffsetSize → ℕ) : OffsetSize :=
  raiseOffset total 0xFFFFFFFF .u64 (raiseOffset total 0xFFFF .u32
    (raiseOffset total 0xFF .u16 .u8))

def offsetTableSerializedSize (numElements remainingInnerSize : ℕ) : ℕ × OffsetSize :=
  let numElementsSz := varintSerializedSize numElements
  if 1 < numElements then
    let offsetSize :=
      chooseOffset fun size => remainingInnerSize + numElementsSz + (numElements - 1) * size.bytes
    (numElementsSz + (numElements - 1) * offsetSize.bytes, offsetSize)
  else (numElementsSz, .u8)

def innerSerializedSize (numElements : ℕ) (childSizes : List SizeTree) : ℕ × OffsetSize :=
  let elemSz := (childSizes.map SizeTree.size).sum
  let table := offsetTableSerializedSize numElements elemSz
  (elemSz + table.1, table.2)

/-- The sizes of the children of one element: of its key, if it has one, and of
its value. -/
def memberSizes (size : Datum → Option SizeTree) :
    List (Option (List UInt8) × Datum) → Option (List SizeTree)
  | [] => some []
  | (key, value) :: members => do
    let tree ← size value
    let rest ← memberSizes size members
    some ((key.map fun k => SizeTree.node (stringSerializedSize k) []).toList ++ tree :: rest)

inductive CheckErrors
  | yes
  | no
  deriving DecidableEq

/-- Can we use an existing serialization? -/
def Datum.existing (check : CheckErrors) (v : Datum) : Option (List UInt8) :=
  match check with
  | .yes => none
  | .no => v.getBufRef

def serializedSize (check : CheckErrors) : ℕ → Datum → Option SizeTree
  | 0, _ => none
  | _ + 1, .scalar s => some (.node s.serializedSize [])
  | fuel + 1, v =>
    match v.existing check with
    | some buf => do
      let inner ← readInnerSerializedSize buf
      some (.node (1 + (inner + varintSerializedSize inner)) [])
    | none => do
      let members ← v.members
      let sizes ← memberSizes (serializedSize check fuel) members
      let inner := (innerSerializedSize members.length sizes).1
      some (.node (1 + (inner + varintSerializedSize inner)) sizes)

def elementSizes : Bool → List SizeTree → List ℕ
  | false, sizes => sizes.map SizeTree.size
  | true, size :: size' :: sizes => (size.size + size'.size) :: elementSizes true sizes
  | true, _ => []

/-- Every offset must fit its place in the table. -/
def serializeOffsetTable (isObject : Bool) (elemSizes : List SizeTree) (offsetSize : OffsetSize) :
    Option (List UInt8) :=
  let sizes := elementSizes isObject elemSizes
  let offsets := startsFrom 0 sizes
  if offsets.all (· < 256 ^ offsetSize.bytes) then
    some (serializeVarint sizes.length ++ table offsetSize.bytes offsets)
  else none

structure SerializationResult where
  arrayTooBig : Bool := false
  extremaPresent : Bool := false
  deriving DecidableEq

def SerializationResult.or (a b : SerializationResult) : SerializationResult :=
  ⟨a.arrayTooBig || b.arrayTooBig, a.extremaPresent || b.extremaPresent⟩

structure Written where
  bytes : List UInt8
  result : SerializationResult

def Written.append (a b : Written) : Written := ⟨a.bytes ++ b.bytes, a.result.or b.result⟩

def Scalar.result : Scalar → SerializationResult
  | .minval => { extremaPresent := true }
  | .maxval => { extremaPresent := true }
  | _ => {}

/-- The elements, each with the sizes computed for it. -/
def serializeMembers (write : Datum → SizeTree → Option Written) :
    List (Option (List UInt8) × Datum) → List SizeTree → Option Written
  | [], _ => some ⟨[], {}⟩
  | (none, value) :: members, size :: sizes => do
    let first ← write value size
    let rest ← serializeMembers write members sizes
    some (first.append rest)
  | (some key, value) :: members, _ :: size :: sizes => do
    let first ← write value size
    let rest ← serializeMembers write members sizes
    some (Written.append ⟨serializeString key, {}⟩ (first.append rest))
  | _, _ => none

namespace Datum

def isObject : Datum → Bool
  | .object _ => true
  | .bufObject _ => true
  | _ => false

def header (v : Datum) : Written :=
  if v.isObject then ⟨[SerializedType.bufRObject.code], {}⟩
  else ⟨[SerializedType.bufRArray.code], { arrayTooBig := v.arrSize.any (100000 < ·) }⟩

end Datum

def serializeWith (check : CheckErrors) : ℕ → Datum → SizeTree → Option Written
  | 0, _, _ => none
  | _ + 1, .scalar s, _ => some ⟨s.serialize, s.result⟩
  | fuel + 1, v, tree =>
    match v.existing check with
    | some buf => some (v.header.append ⟨buf.take (tree.size - 1), {}⟩)
    | none => do
      let members ← v.members
      let (innerSize, offsetSize) := innerSerializedSize members.length tree.children
      let offsets ← serializeOffsetTable v.isObject tree.children offsetSize
      let elements ← serializeMembers (serializeWith check fuel) members tree.children
      some (v.header.append (Written.append ⟨serializeVarint innerSize ++ offsets, {}⟩ elements))

def serialize (check : CheckErrors) (fuel : ℕ) (v : Datum) : Option Written := do
  let tree ← serializedSize check fuel v
  serializeWith check fuel v tree

end PersonnelBackend.Datums
