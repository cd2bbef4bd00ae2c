/-!
# Primitive types

The value types that the language knows by name.  Most have a keyword of their own; all have a
system name, which may be written with or without the `System.` in front.

* `Primitive.ofName?`: the primitive type that a written name spells.
-/

namespace DomainForms

/-- The namespace of the system types, with its dot. -/
def systemScope : String := "System."

/-- A written name without the system namespace in front. -/
def withoutSystemScope (name : String) : String :=
  match systemScope.toList.isPrefixOf? name.toList with
  | some bare => String.ofList bare
  | none => name

/-- A primitive value type. -/
inductive Primitive where
  | bool
  | byte
  | sbyte
  | char
  | short
  | ushort
  | int
  | uint
  | long
  | ulong
  | float
  | double
  | decimal
  | guid
  | dateTime
  | dateTimeOffset
  | timeSpan
deriving DecidableEq, Repr

namespace Primitive

/-- Every primitive type. -/
def all : List Primitive :=
  [bool, byte, sbyte, char, short, ushort, int, uint, long, ulong, float, double, decimal, guid,
    dateTime, dateTimeOffset, timeSpan]

/-- The keyword of a primitive type, if it has one. -/
def keyword? : Primitive → Option String
  | bool => some "bool"
  | byte => some "byte"
  | sbyte => some "sbyte"
  | char => some "char"
  | short => some "short"
  | ushort => some "ushort"
  | int => some "int"
  | uint => some "uint"
  | long => some "long"
  | ulong => some "ulong"
  | float => some "float"
  | double => some "double"
  | decimal => some "decimal"
  | guid => none
  | dateTime => none
  | dateTimeOffset => none
  | timeSpan => none

/-- The system name of a primitive type, without its namespace. -/
def systemName : Primitive → String
  | bool => "Boolean"
  | byte => "Byte"
  | sbyte => "SByte"
  | char => "Char"
  | short => "Int16"
  | ushort => "UInt16"
  | int => "Int32"
  | uint => "UInt32"
  | long => "Int64"
  | ulong => "UInt64"
  | float => "Single"
  | double => "Double"
  | decimal => "Decimal"
  | guid => "Guid"
  | dateTime => "DateTime"
  | dateTimeOffset => "DateTimeOffset"
  | timeSpan => "TimeSpan"

/-- The name that is printed: the keyword where there is one. -/
def canonicalName (p : Primitive) : String := p.keyword?.getD p.systemName

/-- The primitive type that a written name spells, by keyword or by system name. -/
def ofName? (name : String) : Option Primitive :=
  all.find? fun p => p.systemName == withoutSystemScope name || p.keyword? == some name

end Primitive

/-- Whether a written name spells the string type. -/
def isStringName (name : String) : Bool :=
  name == "string" || name == "String" || name == "System.String"

end DomainForms
