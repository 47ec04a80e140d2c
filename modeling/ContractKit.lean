import ContractKit.Text.Alphanumeric
import ContractKit.Number.Binary64
import ContractKit.Text.Lowercase
import ContractKit.Text.Utf8
import ContractKit.Json.Printer
import ContractKit.Json.Display
import ContractKit.Json.Reader
import ContractKit.Value.Printer
import ContractKit.Value.Wire
import ContractKit.Source.Bracket
import ContractKit.Ty.Annotation
import ContractKit.Source.Program
import ContractKit.Literal.Reader
import ContractKit.Argument.Program
import ContractKit.Curve.PrivateKey
import ContractKit.Config.Contracts
import ContractKit.Config.Document
import ContractKit.Workspace.Disk
import ContractKit.Project.Keys
import ContractKit.Project.Plan
import ContractKit.Main
import ContractKit.Proofs.Numeral
import ContractKit.Proofs.Result
import ContractKit.Proofs.Scalar
import ContractKit.Proofs.Value
import ContractKit.Proofs.Literal
import ContractKit.Proofs.Wire
import ContractKit.Proofs.Contracts
import ContractKit.Proofs.PrivateKey
import ContractKit.Proofs.Networks
import ContractKit.Proofs.Accounts
import ContractKit.Proofs.Deployments
import ContractKit.Proofs.Document
import ContractKit.Proofs.Json
import ContractKit.Proofs.JsonText
import ContractKit.Proofs.JsonNormal
import ContractKit.Proofs.Plain
import ContractKit.Proofs.Disk
import ContractKit.Proofs.Session
import ContractKit.Proofs.Project
import ContractKit.Proofs.Commands
import ContractKit.Proofs.AccountSettings
import ContractKit.Proofs.Coercion
import ContractKit.Proofs.Bracket
import ContractKit.Proofs.Layout
import ContractKit.Proofs.Annotation
import ContractKit.Proofs.Parameters
import ContractKit.Proofs.Declaration
import ContractKit.Proofs.Lines
import ContractKit.Proofs.Schema
import ContractKit.Proofs.Plan
import ContractKit.Proofs.Spelling
import ContractKit.Proofs.Print
import ContractKit.Proofs.Outcome
import ContractKit.Proofs.Collections
import ContractKit.Proofs.SavedFile
import ContractKit.Proofs.Files
import ContractKit.Proofs.CurveGroup
import ContractKit.Proofs.Primality
import ContractKit.Proofs.CurveOrder
import ContractKit.Proofs.PublicKey
import ContractKit.Proofs.PointMultiple
import ContractKit.Proofs.CanonicalKey
import ContractKit.Proofs.OptionalArgument
import ContractKit.Proofs.WireText
import ContractKit.Proofs.PointSum
import ContractKit.Proofs.PlanAliases
import ContractKit.Proofs.NormalForm
import ContractKit.Proofs.FixedPoint
import ContractKit.Proofs.IntegerLiteral
import ContractKit.Proofs.StringLiteral
import ContractKit.Proofs.CollectionLiteral
import ContractKit.Proofs.TypeTree
import ContractKit.Proofs.Coverage
import ContractKit.Proofs.TokenLines
import ContractKit.Proofs.AddressText
import ContractKit.Proofs.WireOutcome
import ContractKit.Proofs.BracketPartner
import ContractKit.Proofs.UnusableFile
import ContractKit.Proofs.RefusedKey
