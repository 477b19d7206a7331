import PhpCheck.Text.Blank
import PhpCheck.Text.Casing
import PhpCheck.Text.Joined
import PhpCheck.Decimal.Binary64
import PhpCheck.Decimal.Literal
import PhpCheck.Decimal.Shortest
import PhpCheck.Json.Decode
import PhpCheck.Json.Number
import PhpCheck.Json.Reader
import PhpCheck.Json.Value
import PhpCheck.NameMap
import PhpCheck.Code.Expr
import PhpCheck.Code.Node
import PhpCheck.Code.Operator
import PhpCheck.Code.Source
import PhpCheck.Code.Span
import PhpCheck.Types.Basic
import PhpCheck.Types.Hint
import PhpCheck.Types.Operation
import PhpCheck.Types.Text
import PhpCheck.Program.Basic
import PhpCheck.Program.Declaration
import PhpCheck.Program.Document
import PhpCheck.Symbols.Assembly
import PhpCheck.Symbols.Extension
import PhpCheck.Symbols.Failure
import PhpCheck.Symbols.Info
import PhpCheck.Symbols.Source
import PhpCheck.Symbols.Table
import PhpCheck.Env.Basic
import PhpCheck.Env.Enter
import PhpCheck.Inference.Access
import PhpCheck.Inference.Basic
import PhpCheck.Inference.Members
import PhpCheck.Rules.Arguments
import PhpCheck.Rules.Finding
import PhpCheck.Rules.Hints
import PhpCheck.Rules.Instantiations
import PhpCheck.Rules.MethodCalls
import PhpCheck.Rules.Report
import PhpCheck.Rules.RuleSet
import PhpCheck.Rules.Settings
import PhpCheck.Rules.StaticCalls
import PhpCheck.Rules.StaticProperties
import PhpCheck.Proofs.Hierarchy.Dependence
import PhpCheck.Proofs.Hierarchy.Assembled
import PhpCheck.Proofs.LookUp.Run
import PhpCheck.Proofs.LookUp.Depth
import PhpCheck.Proofs.LookUp.Faithful
import PhpCheck.Proofs.LookUp.Outcome
import PhpCheck.Proofs.LookUp.Query
import PhpCheck.Proofs.LookUp.Success
import PhpCheck.Proofs.Hierarchy.Lineage
import PhpCheck.Proofs.Classes.Subclass
import PhpCheck.Proofs.Classes.MemberKind
import PhpCheck.Proofs.Classes.Override
import PhpCheck.Proofs.Analysis.Repeat
import PhpCheck.Proofs.Analysis.Inference
import PhpCheck.Proofs.Analysis.Order
import PhpCheck.Proofs.Analysis.Failures
import PhpCheck.Proofs.Analysis.Widening
import PhpCheck.Proofs.Analysis.Join
import PhpCheck.Proofs.Analysis.Frame
import PhpCheck.Proofs.Analysis.Session
import PhpCheck.Proofs.Analysis.LessKnown
import PhpCheck.Proofs.Analysis.Answers
import PhpCheck.Proofs.Analysis.Arithmetic
import PhpCheck.Proofs.Analysis.CompoundAssign
import PhpCheck.Proofs.Analysis.Places
import PhpCheck.Proofs.Classes.Belonging
import PhpCheck.Proofs.Classes.TraitMembers
import PhpCheck.Proofs.Classes.Inheritance
import PhpCheck.Proofs.Analysis.FluentChain
import PhpCheck.Proofs.Env.Junction
import PhpCheck.Proofs.Env.Branch
import PhpCheck.Proofs.Env.Walk
import PhpCheck.Proofs.Env.Lifetime
import PhpCheck.Proofs.Env.BoundClosure
import PhpCheck.Proofs.Rules.Wording
import PhpCheck.Proofs.Rules.Restriction
import PhpCheck.Proofs.Rules.ArgumentCheck
import PhpCheck.Proofs.Rules.SurplusArguments
import PhpCheck.Proofs.Rules.MissingMethod
import PhpCheck.Proofs.Rules.Dispatch
import PhpCheck.Proofs.Rules.HintedClasses
import PhpCheck.Proofs.Rules.InstantiatedClass
import PhpCheck.Proofs.Program.ReadBack
import PhpCheck.Proofs.Program.Declared
import PhpCheck.Proofs.Code.Bare
import PhpCheck.Proofs.Source.Reader
import PhpCheck.Proofs.Source.Regular
import PhpCheck.Proofs.Source.Chains
import PhpCheck.Proofs.Source.Operands
import PhpCheck.Proofs.Source.Whole
import PhpCheck.Proofs.Source.Recovery
import PhpCheck.Proofs.Source.Key
import PhpCheck.Proofs.Source.Path
import PhpCheck.Proofs.Env.Narrowing
import PhpCheck.Proofs.Env.Reassignment
import PhpCheck.Proofs.Types.ClassName
import PhpCheck.Proofs.Types.RoundTrip
