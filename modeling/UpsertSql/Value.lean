/-! Values bound to the parameters of a statement, and the host types they are read from. No value
is ever written into statement text. -/
namespace UpsertSql

inductive Value where
  | null
  | bool (b : Bool)
  | int (n : Int64)
  | float (x : Float)
  | text (s : String)
  | blob (bytes : ByteArray)

namespace Value

/-- Floats are compared as numbers: a NaN differs from itself and the two zeros are equal. -/
protected def beq : Value → Value → Bool
  | null, null => true
  | bool a, bool b => a == b
  | int a, int b => a == b
  | float a, float b => a == b
  | text a, text b => a == b
  | blob a, blob b => a == b
  | _, _ => false

instance : BEq Value := ⟨Value.beq⟩

def isNull : Value → Bool
  | null => true
  | _ => false

def typeName : Value → String
  | null => "null"
  | bool _ => "bool"
  | int _ => "int"
  | float _ => "float"
  | text _ => "text"
  | blob _ => "blob"

end Value

/-- Host types whose members can be bound. Integers are widened to 64 bits, which every listed type
fits, and single floats to double, which is exact. -/
class ToValue (α : Type) where
  toValue : α → Value

export ToValue (toValue)

instance : ToValue Value := ⟨id⟩
instance : ToValue Bool := ⟨.bool⟩
instance : ToValue Int64 := ⟨.int⟩
instance : ToValue Int32 := ⟨fun n => .int n.toInt64⟩
instance : ToValue Int16 := ⟨fun n => .int n.toInt64⟩
instance : ToValue Int8 := ⟨fun n => .int n.toInt64⟩
instance : ToValue UInt32 := ⟨fun n => .int n.toUInt64.toInt64⟩
instance : ToValue UInt16 := ⟨fun n => .int n.toUInt64.toInt64⟩
instance : ToValue UInt8 := ⟨fun n => .int n.toUInt64.toInt64⟩
instance : ToValue Float := ⟨.float⟩
instance : ToValue Float32 := ⟨fun x => .float x.toFloat⟩
instance : ToValue String := ⟨.text⟩
instance : ToValue ByteArray := ⟨.blob⟩

/-- A missing value is null. -/
instance {α : Type} [ToValue α] : ToValue (Option α) where
  toValue
    | some a => toValue a
    | none => .null

end UpsertSql
