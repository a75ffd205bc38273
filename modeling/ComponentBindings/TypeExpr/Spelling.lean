import ComponentBindings.Source.Marker
import ComponentBindings.TypeExpr.Shape

/-!
# Spelling types

How primitives and composites are written in the generated code. The parts
of a composite come as texts, so that the spelling is the same whether a part
is written anew or known already.
-/

namespace ComponentBindings

/-- A primitive as it is written. Unsigned integers are types of the runtime. -/
def Primitive.spelling : Primitive → String
  | .bool => "Boolean"
  | .s8 => "Byte"
  | .u8 => runtimePackage ++ ".unsigned.UByte"
  | .s16 => "Short"
  | .u16 => runtimePackage ++ ".unsigned.UShort"
  | .s32 => "Int"
  | .u32 => runtimePackage ++ ".unsigned.UInt"
  | .s64 => "Long"
  | .u64 => runtimePackage ++ ".unsigned.ULong"
  | .f32 => "Float"
  | .f64 => "Double"
  | .char => "Char"
  | .string => "String"

/-- The type of what carries nothing. -/
def unitSpelling : String := "Unit"

/-- A list of elements. -/
def listSpelling (element : String) : String := "Array[" ++ element ++ "]"

/-- An element that may be absent. -/
def optionSpelling (element : String) : String := "java.util.Optional[" ++ element ++ "]"

/-- A result with its two arms. -/
def resultSpelling (ok err : String) : String :=
  runtimePackage ++ ".Result[" ++ ok ++ ", " ++ err ++ "]"

/-- A tuple of items; without items it carries nothing. -/
def tupleSpelling (items : List String) : String :=
  if items.isEmpty then unitSpelling
  else runtimePackage ++ ".Tuple" ++ toString items.length ++ "[" ++ ", ".intercalate items ++ "]"

/-- **A type expression**: a shape, and its text in one module. -/
structure TypeExpr where
  /-- What the expression stands for. -/
  shape : Shape
  /-- How it is written. -/
  text : String
  deriving Repr

end ComponentBindings
