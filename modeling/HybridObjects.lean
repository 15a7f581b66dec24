import HybridObjects.Dynamics.Control
import HybridObjects.Dynamics.Profile
import HybridObjects.Error
import HybridObjects.Files.Path
import HybridObjects.Files.Tree
import HybridObjects.Json.Basic
import HybridObjects.Json.Decode
import HybridObjects.Json.Printer
import HybridObjects.Json.Reader
import HybridObjects.Log
import HybridObjects.Logic.Formula
import HybridObjects.Logic.Interchange
import HybridObjects.Logic.Printer
import HybridObjects.Logic.Resolution
import HybridObjects.Logic.Term
import HybridObjects.Logic.Writer
import HybridObjects.Lowering.Block
import HybridObjects.Lowering.Expr
import HybridObjects.Lowering.Precondition
import HybridObjects.Main
import HybridObjects.Model.CallSet
import HybridObjects.Model.Clause
import HybridObjects.Model.Decode
import HybridObjects.Model.Encode
import HybridObjects.Model.Lookup
import HybridObjects.Model.Outline
import HybridObjects.Model.Spec
import HybridObjects.Model.Syntax
import HybridObjects.Model.Walk
import HybridObjects.Obligation.Contract
import HybridObjects.Obligation.Problem
import HybridObjects.Obligation.Progress
import HybridObjects.Proofs.Acceptance
import HybridObjects.Proofs.ArgumentUse
import HybridObjects.Proofs.Artifacts
import HybridObjects.Proofs.Assembly
import HybridObjects.Proofs.CallContracts
import HybridObjects.Proofs.ClauseText
import HybridObjects.Proofs.ClosedObligations
import HybridObjects.Proofs.Composition
import HybridObjects.Proofs.Controllers
import HybridObjects.Proofs.Declarations
import HybridObjects.Proofs.EntryStates
import HybridObjects.Proofs.Execution
import HybridObjects.Proofs.FileTrees
import HybridObjects.Proofs.Fragment
import HybridObjects.Proofs.Frame
import HybridObjects.Proofs.Grammar
import HybridObjects.Proofs.Inheritance
import HybridObjects.Proofs.Initialization
import HybridObjects.Proofs.Instantiation
import HybridObjects.Proofs.JsonForms
import HybridObjects.Proofs.Layouts
import HybridObjects.Proofs.LoweringMeaning
import HybridObjects.Proofs.LoweringSteps
import HybridObjects.Proofs.Lowers
import HybridObjects.Proofs.Minting
import HybridObjects.Proofs.ModelFormat
import HybridObjects.Proofs.MustCalls
import HybridObjects.Proofs.NameClashes
import HybridObjects.Proofs.Offences
import HybridObjects.Proofs.Outcome
import HybridObjects.Proofs.Paths
import HybridObjects.Proofs.Placeholders
import HybridObjects.Proofs.ReadingBack
import HybridObjects.Proofs.Refusals
import HybridObjects.Proofs.Regions
import HybridObjects.Proofs.Resolution
import HybridObjects.Proofs.Semantics
import HybridObjects.Proofs.Silence
import HybridObjects.Proofs.Spelling
import HybridObjects.Proofs.Strategies
import HybridObjects.Proofs.Tokens
import HybridObjects.Proofs.Translatable
import HybridObjects.Proofs.Unfolding
import HybridObjects.Proofs.Variables
import HybridObjects.Proofs.Verdicts
import HybridObjects.Proofs.Walks
import HybridObjects.Prover.Backend
import HybridObjects.Prover.Command
import HybridObjects.Prover.Settings
import HybridObjects.Prover.Verdict
import HybridObjects.Session.Arguments
import HybridObjects.Session.Batch
import HybridObjects.Session.Failure
import HybridObjects.Session.Loading
import HybridObjects.Session.Settings
import HybridObjects.Session.Target
import HybridObjects.Session.Tool
import HybridObjects.Text.Blank
import HybridObjects.Text.CodeOrder
import HybridObjects.Text.Ident
import HybridObjects.Text.Lines
import HybridObjects.Text.Outline
import HybridObjects.Text.Printable
import HybridObjects.Text.Quoted
import HybridObjects.Text.WordChar
import HybridObjects.Toml.Basic
import HybridObjects.Toml.Decimal
import HybridObjects.Toml.Document
import HybridObjects.Toml.Scalar
import HybridObjects.Proofs.Traversals
import HybridObjects.Proofs.Renamings
import HybridObjects.Proofs.Conjunctions
