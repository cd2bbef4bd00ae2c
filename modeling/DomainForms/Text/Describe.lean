import DomainForms.Text.Dotted
import DomainForms.Text.Quoted

/-!
# Descriptions

Diagnostics of the evaluator show the values and expressions that they are about.  A description is
written by a few rules: a plain word, a word applied to descriptions, a word with named fields, a
list, or a table from quoted texts.
-/

namespace DomainForms.Text.Describe

/-- A word applied to descriptions. -/
def apply (word : String) (parts : List String) : String :=
  word ++ "(" ++ separated ", " parts ++ ")"

/-- One named part of a description. -/
def labelled (part : String × String) : String := part.1 ++ ": " ++ part.2

/-- A word with named fields. -/
def record (word : String) (parts : List (String × String)) : String :=
  word ++ " \x7b " ++ separated ", " (parts.map labelled) ++ " \x7d"

/-- A list of descriptions. -/
def list (parts : List String) : String := "[" ++ separated ", " parts ++ "]"

/-- A table of descriptions. -/
def table (parts : List (String × String)) : String :=
  "\x7b" ++ separated ", " (parts.map labelled) ++ "\x7d"

end DomainForms.Text.Describe
