import EthercatInterface.Lib.LittleEndian
import EthercatInterface.Spec.Access

/-!
# Printing the value of an SDO

`sdo_print_helper.hpp`, which the bus scanner uses. A buffer begins with zeros, and a read
overwrites as much of it as it was given. What `std::to_chars` makes of the bytes of a
floating point number is a parameter.
-/

namespace EthercatInterface

open Interleave

/-- `maximum_visible_string_size`. -/
def maximumVisibleStringSize : ℕ := 255

/-- A buffer of `size` zeros after `data` has been read into its first `n` bytes. -/
def readInto (size n : ℕ) (data : List UInt8) : List UInt8 :=
  data.take n ++ List.replicate (size - min n data.length) 0

/-- `number_to_string`, of an integer. -/
def numberToString (x : ℤ) : String := toString x

/-- Characters of a `std::string`. -/
def textOf (bytes : List UInt8) : String := String.ofList (bytes.map fun b => Char.ofNat b.toNat)

/-! ## Values -/

/-- The loop of `sdo_read_odd_int`. -/
def assemble (buf : List UInt8) (bytes : ℕ) : UInt64 :=
  (List.range bytes).foldl (fun v i => v ||| (buf.getD i 0).toUInt64 <<< (8 * UInt64.ofNat i)) 0

/-- `(v ^ sign_bit) - sign_bit`. -/
def extendSign (v : UInt64) (bytes : ℕ) : UInt64 :=
  let signBit : UInt64 := 1 <<< UInt64.ofNat (bytes * 8 - 1)
  (v ^^^ signBit) - signBit

/-- What `sdo_read_odd_int` makes of its buffer. -/
def oddInt (buf : List UInt8) (bytes : ℕ) (isSigned : Bool) : ℤ :=
  let v := assemble buf bytes
  if isSigned then (extendSign v bytes).toInt64.toInt else v.toNat

/-- `text.substr(0, text.find('\0'))` of what was read. -/
def visibleString (buf : List UInt8) (actualSizeRead : ℤ) : List UInt8 :=
  (buf.take (toSize actualSizeRead)).takeWhile (· ≠ 0)

/-! ## Reading -/

/-- A read into a buffer of `size` bytes, of which the first `n` are offered, printed by `text` if
it succeeds. -/
def readAndPrint (size n : ℕ) (id : DeviceId) (index subIndex : ℕ) (checkSize : Bool)
    (text : SDOReadResult → List UInt8 → String) : P String := do
  let read ← readSdoUntyped n id index subIndex checkSize
  if !read.1.success then pure "error"
  else pure (text read.1 (readInto size n read.2))

/-- `sdo_read_odd_int`. -/
def sdoReadOddInt (id : DeviceId) (index subIndex bytes : ℕ) (isSigned : Bool) : P String :=
  readAndPrint 8 bytes id index subIndex true fun _ buf => numberToString (oddInt buf bytes isSigned)

/-- `sdo_read_bits`. -/
def sdoReadBits (id : DeviceId) (index subIndex bits : ℕ) : P String :=
  readAndPrint 1 1 id index subIndex true fun _ buf =>
    numberToString ((buf.getD 0 0).toNat &&& (1 <<< bits - 1))

/-- The types of `sdo_read_as`: an integer of some size is the one its bytes denote on a
little-endian machine. -/
inductive ValueType
  | bool
  | integer (size : ℕ) (isSigned : Bool)
  | real (size : ℕ)
  | string

/-- `sdo_read_as`. -/
def sdoReadAs (showReal : List UInt8 → String) (T : ValueType) (id : DeviceId)
    (index subIndex : ℕ) : P String :=
  match T with
  | .bool => readAndPrint 1 1 id index subIndex true fun _ buf => if buf.getD 0 0 ≠ 0 then "true" else "false"
  | .integer size isSigned => readAndPrint size size id index subIndex true fun _ buf =>
    numberToString (if isSigned then LittleEndian.signed buf else LittleEndian.unsigned buf)
  | .real size => readAndPrint size size id index subIndex true fun _ buf => showReal buf
  | .string => readAndPrint maximumVisibleStringSize maximumVisibleStringSize id index subIndex false
    fun r buf => textOf (visibleString buf r.actualSizeRead)

/-! ## The helper -/

/-- `to_string(Backend)`. -/
def Backend.name : Backend → String
  | .unknown => "Unknown"
  | .soem => "SOEM"
  | .etherlab => "Etherlab"

/-- `what()` of a `BackendError`. -/
def backendMessage (msg : String) (backend : Backend) (ec : Option ℤ) : String :=
  "[" ++ backend.name ++ "] " ++ msg ++
    match ec with
    | some ec => " (ec: " ++ toString ec ++ ")"
    | none => ""

/-- Caught by `catch (const std::runtime_error&)`, with its `what()`. -/
def Exn.runtimeError? : Exn → Option String
  | .backendError msg backend ec => some (backendMessage msg backend ec)
  | .deviceNotFound msg backend ec => some (backendMessage msg backend ec)
  | .deviceConfigurationError msg => some msg
  | .executorError msg => some msg
  | .invalidArgument _ | .logicError _ | .badOptionalAccess | .user _ => none

/-- How a value is read. -/
inductive SdoReading
  | as (T : ValueType)
  | oddInt (bytes : ℕ) (isSigned : Bool)
  | bits (n : ℕ)

/-- `DataType::BIT1`. -/
def DataType.BIT1 : ℕ := 0x0030

/-- `DataType::BIT8`. -/
def DataType.BIT8 : ℕ := 0x0037

/-- How the value of a `DataType` is read, by its code. -/
def readingOf (sdoDataType : ℕ) : Option SdoReading :=
  if DataType.BIT1 ≤ sdoDataType ∧ sdoDataType ≤ DataType.BIT8 then
    some (.bits (sdoDataType - DataType.BIT1 + 1))
  else
    match sdoDataType with
    | 0x0001 => some (.as .bool)
    | 0x0002 => some (.as (.integer 1 true))
    | 0x0003 => some (.as (.integer 2 true))
    | 0x0004 => some (.as (.integer 4 true))
    | 0x0015 => some (.as (.integer 8 true))
    | 0x0005 => some (.as (.integer 1 false))
    | 0x0006 => some (.as (.integer 2 false))
    | 0x0007 => some (.as (.integer 4 false))
    | 0x001B => some (.as (.integer 8 false))
    | 0x0008 => some (.as (.real 4))
    | 0x0011 => some (.as (.real 8))
    | 0x0009 => some (.as .string)
    -- 24, 40, 48 and 56 bits
    | 0x0010 => some (.oddInt 3 true)
    | 0x0012 => some (.oddInt 5 true)
    | 0x0013 => some (.oddInt 6 true)
    | 0x0014 => some (.oddInt 7 true)
    | 0x0016 => some (.oddInt 3 false)
    | 0x0018 => some (.oddInt 5 false)
    | 0x0019 => some (.oddInt 6 false)
    | 0x001A => some (.oddInt 7 false)
    | _ => none

/-- `sdo_print_helper`. -/
def sdoPrintHelper (showReal : List UInt8 → String) (id : DeviceId) (index subIndex sdoDataType : ℕ) :
    P String :=
  Prog.tryCatch (
    match readingOf sdoDataType with
    | some (.as T) => sdoReadAs showReal T id index subIndex
    | some (.oddInt bytes isSigned) => sdoReadOddInt id index subIndex bytes isSigned
    | some (.bits n) => sdoReadBits id index subIndex n
    | none => pure "error") fun e =>
      match e.runtimeError? with
      | some what => pure ("error: " ++ what)
      | none => Prog.throw e

end EthercatInterface
