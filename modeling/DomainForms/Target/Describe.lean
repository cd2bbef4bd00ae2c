import DomainForms.Target.Expr
import DomainForms.Text.Describe

/-!
# Descriptions of expressions

How diagnostics show a type reference or an expression.

* `TypeRef.describe`, `Expr.describe`: the descriptions.
-/

namespace DomainForms

open Text (quote)
open Text.Describe

/-- The word for a primitive type. -/
def Primitive.describe : Primitive → String
  | bool => "Bool"
  | byte => "Byte"
  | sbyte => "SByte"
  | char => "Char"
  | short => "Short"
  | ushort => "UShort"
  | int => "Int"
  | uint => "UInt"
  | long => "Long"
  | ulong => "ULong"
  | float => "Float"
  | double => "Double"
  | decimal => "Decimal"
  | guid => "Guid"
  | dateTime => "DateTime"
  | dateTimeOffset => "DateTimeOffset"
  | timeSpan => "TimeSpan"

/-- The description of a qualified name. -/
def QualifiedName.describe (name : QualifiedName) : String :=
  record "TypeName" [("segments", list (name.segments.map quote))]

/-- The description of array brackets. -/
def Rank.describe (r : Rank) : String :=
  record "RankSpecifier" [("dimensions", toString r.dimensions)]

/-- The description of a type reference. -/
def TypeRef.describe : TypeRef → String
  | simple p => apply "Simple" [p.describe]
  | string => "String"
  | nullable p => apply "Nullable" [p.describe]
  | array element ranks =>
    record "Array" [("element", element.describe), ("ranks", list (ranks.map Rank.describe))]
  | named name => apply "Named" [name.describe]

/-- The word for an operator. -/
def BinaryOp.describe : BinaryOp → String
  | eq => "Eq"
  | ne => "Ne"
  | and => "And"
  | or => "Or"
  | add => "Add"

/-- The word for a comparison of items. -/
def ElementComparison.describe : ElementComparison → String
  | value => "Value"
  | nullSafe => "NullSafe"

/-- The description of an expression. -/
def Expr.describe : Expr → String
  | bool value => apply "Bool" [toString value]
  | int value => apply "Int" [toString value.toInt]
  | null => "Null"
  | self => "This"
  | ident name => apply "Ident" [quote name]
  | member target name => apply "Member" [target.describe, quote name]
  | not inner => apply "Not" [inner.describe]
  | binary op left right =>
    record "Binary" [("op", op.describe), ("left", left.describe), ("right", right.describe)]
  | isNull inner => apply "IsNull" [inner.describe]
  | nullSafeEquals left right => apply "NullSafeEquals" [left.describe, right.describe]
  | invokeEquals target argument parameter =>
    record "InvokeEquals"
      [("target", target.describe), ("arg", argument.describe), ("param_type", parameter.describe)]
  | hashCode inner => apply "HashCode" [inner.describe]
  | length inner => apply "Length" [inner.describe]
  | elementwiseEquals left right element =>
    record "ElementwiseEquals"
      [("left", left.describe), ("right", right.describe), ("element", element.describe)]
  | isType inner type => apply "IsType" [inner.describe, type.describe]
  | cast inner type => apply "Cast" [inner.describe, type.describe]

end DomainForms
