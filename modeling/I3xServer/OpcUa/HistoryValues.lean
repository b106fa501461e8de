import I3xServer.Api.WriteValues
import I3xServer.Domain.Instants
import Mathlib.Algebra.Group.Int.Defs

/-!
# Values of history updates

A requested value is converted to the declared variant type before it is sent
to the historian. A value that does not fit is refused with a `ValueError`; a date
and time that UTC cannot show raises another exception.
-/
namespace I3x.OpcUa
open I3x.Api

inductive VariantType where
  | null | boolean | sByte | byte | int16 | uInt16 | int32 | uInt32 | int64 | uInt64
  | float | double | string | dateTime | guid | byteString
  | other (name : String)
  deriving DecidableEq, Repr

def VariantType.name : VariantType → String
  | .null => "Null"
  | .boolean => "Boolean"
  | .sByte => "SByte"
  | .byte => "Byte"
  | .int16 => "Int16"
  | .uInt16 => "UInt16"
  | .int32 => "Int32"
  | .uInt32 => "UInt32"
  | .int64 => "Int64"
  | .uInt64 => "UInt64"
  | .float => "Float"
  | .double => "Double"
  | .string => "String"
  | .dateTime => "DateTime"
  | .guid => "Guid"
  | .byteString => "ByteString"
  | .other name => name

/-- The width of an integer type and whether it is signed. -/
def VariantType.integerBits : VariantType → Option (Nat × Bool)
  | .sByte => some (8, true)
  | .byte => some (8, false)
  | .int16 => some (16, true)
  | .uInt16 => some (16, false)
  | .int32 => some (32, true)
  | .uInt32 => some (32, false)
  | .int64 => some (64, true)
  | .uInt64 => some (64, false)
  | _ => none

def VariantType.supported : VariantType → Bool
  | .null | .other _ => false
  | _ => true

/-- An exception of a conversion, with its class. -/
inductive Raised where
  | valueError (message : String)
  | overflowError (message : String)
  deriving DecidableEq, Repr

/-- The microseconds of the years 1 to 9999. -/
def calendarEnd : Nat := daysBeforeYear 10000 * 86400 * 1000000

theorem calendarEnd_pos : 0 < calendarEnd := by decide

/-- A `datetime`: the microseconds on its clock since the beginning of year 1, and its
offset from UTC if it is aware. -/
structure PyDateTime where
  clock : Nat
  utcoffset : Option Int
  clock_lt : clock < calendarEnd
  deriving DecidableEq, Repr

/-- `astimezone(timezone.utc)` of an aware date and time. -/
def astimezoneUtc (clock : Nat) (utcoffset : Int) : Except Raised Nat :=
  let utc := clock - utcoffset
  if 0 ≤ utc ∧ utc < calendarEnd then .ok utc.toNat else .error (.overflowError "date value out of range")

/-- The parsers of the standard library. Floating-point numbers stay literals, and
`toFloat` is absent where the conversion overflows. A parser that refuses its text does
so with the message of a `ValueError`. `timestamp` is the reading of a request's timestamp. -/
structure ScalarCodec where
  toFloat : PyValue → Option String
  isFinite : String → Bool
  fitsSingle : String → Bool
  fromisoformat : String → Except String PyDateTime
  uuid : String → Except String String
  b64decode : String → Option (List UInt8)
  timestamp : String → PyDateTime

/-- A converted value. Dates and times are microseconds of UTC. -/
inductive VariantValue where
  | boolean (value : Bool)
  | integer (value : Int)
  | double (literal : String)
  | text (value : String)
  | dateTime (utc : Nat)
  | guid (value : String)
  | byteString (octets : List UInt8)
  | array (items : List VariantValue)

/-- A value as it is sent to the historian; `none` is the null variant. -/
structure HistoricalValue where
  value : Option VariantValue
  variantType : VariantType
  statusCode : Nat
  sourceTimestamp : Nat

def qualityCode (quality : String) : Option Nat :=
  if quality = "Good" then some 0
  else if quality = "Uncertain" then some 0x40000000
  else if quality = "Bad" then some 0x80000000
  else if quality = "GoodNoData" then some 0x00A50000
  else none

section
variable (codec : ScalarCodec)

/-- `_convert_scalar`. -/
def convertScalar (value : PyValue) (variantType : VariantType) : Except Raised VariantValue :=
  let mismatch := .error (.valueError ("Value does not conform to OPC UA " ++ variantType.name))
  match variantType.integerBits with
  | some (bits, isSigned) =>
      let minimum : Int := if isSigned then -(2 ^ (bits - 1)) else 0
      let maximum : Int := if isSigned then 2 ^ (bits - 1) - 1 else 2 ^ bits - 1
      match value with
      | .int i => if minimum ≤ i ∧ i ≤ maximum then .ok (.integer i) else mismatch
      | _ => mismatch
  | none =>
      match variantType, value with
      | .float, .int _ | .double, .int _ | .float, .float _ | .double, .float _ =>
          match codec.toFloat value with
          | none => .error (.valueError "Numeric value is out of range")
          | some number =>
              if codec.isFinite number && (variantType ≠ .float || codec.fitsSingle number) then .ok (.double number)
              else mismatch
      | .boolean, .bool b => .ok (.boolean b)
      | .string, .str s => .ok (.text s)
      | .dateTime, .str s =>
          match codec.fromisoformat (s.replace "Z" "+00:00") with
          | .error message => .error (.valueError message)
          | .ok parsed =>
              match parsed.utcoffset with
              | none => mismatch
              | some utcoffset => (astimezoneUtc parsed.clock utcoffset).map .dateTime
      | .guid, .str s =>
          match codec.uuid s with
          | .error message => .error (.valueError message)
          | .ok parsed => .ok (.guid parsed)
      | .byteString, .str s =>
          match codec.b64decode s with
          | none => .error (.valueError "Invalid base64 ByteString")
          | some octets => .ok (.byteString octets)
      | _, _ =>
          if variantType.supported then mismatch
          else .error (.valueError ("Historical writes for " ++ variantType.name ++ " values are not supported"))

mutual

/-- `_convert_value`: the converted value with the lengths of its dimensions. -/
def convertValue (variantType : VariantType) : PyValue → Except Raised (VariantValue × List Nat)
  | .list items =>
      match convertItems variantType items with
      | .error raised => .error raised
      | .ok converted =>
          let childShape := ((converted.map Prod.snd).head?).getD []
          if converted.any fun item => item.2 ≠ childShape then
            .error (.valueError "Arrays must be rectangular and contain values of the declared type")
          else .ok (.array (converted.map Prod.fst), items.length :: childShape)
  | value => (convertScalar codec value variantType).map fun converted => (converted, [])

def convertItems (variantType : VariantType) : List PyValue → Except Raised (List (VariantValue × List Nat))
  | [] => .ok []
  | item :: items =>
      match convertValue variantType item with
      | .error raised => .error raised
      | .ok converted => (convertItems variantType items).map (converted :: ·)

end

/-- The value ranks that a number of dimensions conforms to. -/
def conformsToRank (valueRank : Int) (dimensions : Nat) : Bool :=
  !(valueRank = -1 && dimensions ≠ 0 || valueRank = -3 && 1 < dimensions || valueRank = 0 && dimensions = 0 ||
    0 < valueRank && (dimensions : Int) ≠ valueRank || valueRank < -3)

/-- An absent list of dimensions is an empty one. -/
def conformsToDimensions (shape arrayDimensions : List Nat) : Bool :=
  shape = [] || arrayDimensions = [] ||
    (shape.length = arrayDimensions.length &&
      (shape.zip arrayDimensions).all fun pair => pair.2 = 0 || pair.1 ≤ pair.2)

/-- The variant of a data value with its type: null, or the converted value. -/
def historicalVariant (value : PyValue) (quality : String) (variantType : VariantType) (valueRank : Int)
    (arrayDimensions : List Nat) : Except Raised (Option VariantValue × VariantType) :=
  if value.isNone then
    if quality ∉ ["Bad", "GoodNoData"] then
      .error (.valueError "A null value requires Bad or GoodNoData quality")
    else .ok (none, .null)
  else if quality ∈ ["Bad", "GoodNoData"] then
    .error (.valueError "Bad and GoodNoData quality require a null value")
  else if !variantType.supported then
    .error (.valueError ("Historical writes for " ++ variantType.name ++ " values are not supported"))
  else
    match convertValue codec variantType value with
    | .error raised => .error raised
    | .ok (converted, shape) =>
        if !conformsToRank valueRank shape.length then
          .error (.valueError "Value does not conform to the OPC UA ValueRank")
        else if !conformsToDimensions shape arrayDimensions then
          .error (.valueError "Value does not conform to OPC UA ArrayDimensions")
        else .ok (some converted, variantType)

/-- `historical_data_value`. -/
def historicalDataValue (value : PyValue) (quality : String) (timestamp : PyDateTime) (variantType : VariantType)
    (valueRank : Int) (arrayDimensions : List Nat) : Except Raised HistoricalValue :=
  match qualityCode quality with
  | none => .error (.valueError "Unsupported historical quality")
  | some statusCode =>
      match timestamp.utcoffset with
      | none => .error (.valueError "Historical timestamp must include a timezone")
      | some utcoffset =>
          match historicalVariant codec value quality variantType valueRank arrayDimensions with
          | .error raised => .error raised
          | .ok (value, variantType) =>
              (astimezoneUtc timestamp.clock utcoffset).map fun sourceTimestamp =>
                { value, variantType, statusCode, sourceTimestamp }

end

end I3x.OpcUa
