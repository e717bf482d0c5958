import EthercatInterface.Lib.Layout
import EthercatInterface.Spec.Print

/-!
# Typed accesses

`sdo_read<T>` and `sdo_write<T>` with the wrapper of their values. A type is given by its `ByteLayout`; a string
has none, and its own two functions.
-/

namespace EthercatInterface

open Interleave

/-! ## `ValueDiagnosticsWrapper` -/

/-- `ValueDiagnosticsWrapper`: a value, if there is one, next to the diagnostics. -/
structure ValueDiagnosticsWrapper (α δ : Type) where
  diagnostics : δ
  value : Option α := none

namespace ValueDiagnosticsWrapper

variable {α δ : Type}

/-- `has_value`. -/
def hasValue (x : ValueDiagnosticsWrapper α δ) : Bool := x.value.isSome

end ValueDiagnosticsWrapper

/-- `SDOReadValue`. -/
abbrev SDOReadValue (α : Type) : Type := ValueDiagnosticsWrapper α SDOReadResult

/-! ## SDO -/

variable {α : Type}

/-- `sdo_read`. -/
def sdoRead (T : ByteLayout α) (id : DeviceId) (index subIndex : ℕ) : P (SDOReadValue α) := do
  let read ← readSdoUntyped T.size id index subIndex true
  if !read.1.success then pure { diagnostics := read.1 }
  else pure { diagnostics := read.1, value := some (T.value (readInto T.size T.size read.2)) }

/-- `sdo_read<std::string>`. -/
def sdoReadString (id : DeviceId) (index subIndex : ℕ) : P (SDOReadValue (List UInt8)) := do
  let read ← readSdoUntyped maximumVisibleStringSize id index subIndex false
  if !read.1.success then pure { diagnostics := read.1 }
  else do
    let data := readInto maximumVisibleStringSize maximumVisibleStringSize read.2
    pure { diagnostics := read.1, value := some (visibleString data read.1.actualSizeRead) }

/-- `sdo_write`. -/
def sdoWrite (T : ByteLayout α) (id : DeviceId) (value : α) (index subIndex : ℕ) : P SDOWriteResult :=
  writeSdoUntyped (T.bytes value) id index subIndex

/-- `sdo_write<std::string>`, of the characters of the string. -/
def sdoWriteString (id : DeviceId) (value : List UInt8) (index subIndex : ℕ) : P SDOWriteResult :=
  writeSdoUntyped value id index subIndex

end EthercatInterface
