import DomainForms.Binary64
import DomainForms.Compiler
import DomainForms.Conventions
import DomainForms.Decimal.Shortest
import DomainForms.Declaration
import DomainForms.Declaration.Parser
import DomainForms.Document
import DomainForms.Document.Defaults
import DomainForms.Document.Parser
import DomainForms.Document.Printer
import DomainForms.Error
import DomainForms.Eval.Body
import DomainForms.Eval.Evaluator
import DomainForms.Eval.Fault
import DomainForms.Eval.Value
import DomainForms.Grammar.Fault
import DomainForms.Grammar.Parser
import DomainForms.KnownType
import DomainForms.KnownType.Table
import DomainForms.Layout
import DomainForms.Model
import DomainForms.Name
import DomainForms.NameMap
import DomainForms.Primitive
import DomainForms.Proofs.Document.Names
import DomainForms.Proofs.Document.Printer
import DomainForms.Proofs.Eval.Equality
import DomainForms.Proofs.Eval.HashCode
import DomainForms.Proofs.Eval.Structure
import DomainForms.Proofs.Eval.WellFormed
import DomainForms.Proofs.Grammar.Declarations
import DomainForms.Proofs.Grammar.Derivation
import DomainForms.Proofs.Grammar.Documents
import DomainForms.Proofs.Grammar.Reads
import DomainForms.Proofs.Grammar.Types
import DomainForms.Proofs.Layout
import DomainForms.Proofs.NameMap
import DomainForms.Proofs.Outcome
import DomainForms.Proofs.QualifiedName
import DomainForms.Proofs.Resolution
import DomainForms.Proofs.Target.Record
import DomainForms.Proofs.Token.Lexer
import DomainForms.Settings
import DomainForms.Span
import DomainForms.SystemType
import DomainForms.Target.Definition
import DomainForms.Target.Describe
import DomainForms.Target.Equality
import DomainForms.Target.Expr
import DomainForms.Target.Generation
import DomainForms.Text.Blank
import DomainForms.Text.Bytes
import DomainForms.Text.CodePoints
import DomainForms.Text.Describe
import DomainForms.Text.Dotted
import DomainForms.Text.Letter
import DomainForms.Text.LowerCase
import DomainForms.Text.Number
import DomainForms.Text.Quoted
import DomainForms.Text.Visible
import DomainForms.Token
import DomainForms.Token.Lexer
import DomainForms.TypeRef
import DomainForms.TypeRef.Parser
import DomainForms.Proofs.Target.Groups
import DomainForms.Proofs.Target.Outline
import DomainForms.Proofs.Compilation
import DomainForms.Proofs.DeclarationOrder
import DomainForms.Proofs.Target.UniqueNames
import DomainForms.Proofs.Target.References
import DomainForms.Proofs.Grammar.Places
import DomainForms.Proofs.Diagnosis
import DomainForms.Proofs.Token.Trivia
import DomainForms.Proofs.FirstError
import DomainForms.Proofs.Document.Shape
import DomainForms.Proofs.Reformatting
import DomainForms.Proofs.KnownType.Table
import DomainForms.Proofs.Target.Members
import DomainForms.Proofs.Eval.Depth
import DomainForms.Proofs.Eval.Comparison
import DomainForms.Proofs.Eval.Settling
import DomainForms.Proofs.Eval.Construction
import DomainForms.Proofs.Eval.Agreement
import DomainForms.Proofs.Target.Classification
import DomainForms.Proofs.Eval.HashSum
import DomainForms.Proofs.PropertyOrder
import DomainForms.Proofs.Eval.Termination
import DomainForms.Proofs.Token.Positions
import DomainForms.Proofs.Grammar.Keeps
import DomainForms.Proofs.Grammar.Viability
import DomainForms.Proofs.Grammar.Lookahead
import DomainForms.Proofs.Grammar.FirstFault
import DomainForms.Proofs.Grammar.FaultPlace
import DomainForms.Proofs.Document.Defaults
import DomainForms.Proofs.Document.Spelling
import DomainForms.Model.Session
import DomainForms.Proofs.Resolution.Innermost
import DomainForms.Proofs.FormSpans
import DomainForms.Proofs.Target.Transfer
import DomainForms.Proofs.Relaxation
import DomainForms.Proofs.Conventions
import DomainForms.Proofs.Extension
import DomainForms.Proofs.KnownType.History
import DomainForms.Proofs.ValueTypes
