import DomainForms.TypeRef

/-!
# Bodies

The bodies of generated members are small trees of statements and expressions.  They say what a
member does without the spelling of any target language.

* `Expr`, `Stmt`: expressions and statements.
* `Expr.selfMember`, `Expr.both`, `Expr.either`, `Expr.negate`: the forms that generated bodies are
  built from.
-/

namespace DomainForms

/-- An operator between two expressions. -/
inductive BinaryOp where
  /-- Equality of values. -/
  | eq
  /-- Inequality of values. -/
  | ne
  /-- Conjunction; the right side counts only if the left one holds. -/
  | and
  /-- Disjunction; the right side counts only if the left one does not hold. -/
  | or
  /-- Addition of integers, which wraps. -/
  | add
deriving DecidableEq, Repr

/-- How the items of two arrays are compared. -/
inductive ElementComparison where
  /-- As values. -/
  | value
  /-- By structure, where null equals null only. -/
  | nullSafe
deriving DecidableEq, Repr

/-- An expression. -/
inductive Expr where
  /-- A truth value. -/
  | bool (value : Bool)
  /-- An integer. -/
  | int (value : Int64)
  /-- The null reference. -/
  | null
  /-- The instance that the member belongs to. -/
  | self
  /-- A parameter. -/
  | ident (name : String)
  /-- A member of an instance. -/
  | member (target : Expr) (name : String)
  /-- Negation. -/
  | not (inner : Expr)
  /-- Two expressions with an operator between them. -/
  | binary (op : BinaryOp) (left right : Expr)
  /-- Whether an expression is null; no declared operator is asked. -/
  | isNull (inner : Expr)
  /-- Whether two expressions are both null, or both not null and equal by structure. -/
  | nullSafeEquals (left right : Expr)
  /-- A call of the equality method whose parameter has the given type. -/
  | invokeEquals (target argument : Expr) (parameter : TypeRef)
  /-- The hash code of an expression. -/
  | hashCode (inner : Expr)
  /-- The length of an array. -/
  | length (inner : Expr)
  /-- Whether two arrays have the same length and equal items. -/
  | elementwiseEquals (left right : Expr) (element : ElementComparison)
  /-- Whether an expression is an instance of a type. -/
  | isType (inner : Expr) (type : TypeRef)
  /-- An expression taken as an instance of a type. -/
  | cast (inner : Expr) (type : TypeRef)
deriving DecidableEq, Repr

namespace Expr

/-- A member of the instance itself. -/
def selfMember (name : String) : Expr := .member .self name

/-- Both of two expressions hold. -/
def both (left right : Expr) : Expr := .binary .and left right

/-- One of two expressions holds. -/
def either (left right : Expr) : Expr := .binary .or left right

/-- An expression does not hold. -/
def negate (inner : Expr) : Expr := .not inner

end Expr

/-- A statement. -/
inductive Stmt where
  /-- Ends the body with a value. -/
  | ret (value : Expr)
  /-- Stores a value. -/
  | assign (target value : Expr)
  /-- Goes on with one of two lists of statements. -/
  | branch (condition : Expr) (yes no : List Stmt)

end DomainForms
