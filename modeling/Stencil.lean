import Stencil.Text.Identifier
import Stencil.Text.Letter
import Stencil.Text.Case
import Stencil.Text.Quoted
import Stencil.Number.Layout
import Stencil.Number.Reader
import Stencil.Calendar.Iso
import Stencil.Value.Equal
import Stencil.Value.Json
import Stencil.Value.Path
import Stencil.Value.Compare
import Stencil.Host
import Stencil.Expr.Printer
import Stencil.Expr.Parser
import Stencil.Expr.Output
import Stencil.Markup.Delimiters
import Stencil.Markup.Lexer
import Stencil.Markup.Loop
import Stencil.Markup.Parser
import Stencil.Settings.Render
import Stencil.Settings.Basic
import Stencil.Settings.Reader
import Stencil.Expr.Eval
import Stencil.Procedure.Compiler
import Stencil.Procedure.Workbench
import Stencil.Procedure.Issues
import Stencil.Cache
import Stencil.Digest.Sha1
import Stencil.Render.Frame
import Stencil.Text.Markup
import Stencil.Engine
import Stencil.Engine.Fleet
import Stencil.Files
import Stencil.Files.Includes
import Stencil.Settings.Printer
import Stencil.Yaml.Reader
import Stencil.Settings.File
import Stencil.Command.Line
import Stencil.Command.Report
import Stencil.Command.Run
import Stencil.Command.Needs
import Stencil.Main
import Stencil.Yaml.Node
import Stencil.Proofs.Simulation
import Stencil.Proofs.Interpolation
import Stencil.Proofs.Dependence
import Stencil.Proofs.Transparency
import Stencil.Proofs.Validation
import Stencil.Proofs.Strictness
import Stencil.Proofs.Quoting
import Stencil.Proofs.Rounding
import Stencil.Proofs.Lateness
import Stencil.Proofs.Deadline
import Stencil.Proofs.Nesting
import Stencil.Proofs.Escapes
import Stencil.Proofs.Binding
import Stencil.Proofs.Derivation
import Stencil.Proofs.Tiling
import Stencil.Proofs.Printing
import Stencil.Proofs.Indexing
import Stencil.Proofs.Splicing
import Stencil.Proofs.Abreast
import Stencil.Proofs.Inlining
import Stencil.Proofs.Lenience
import Stencil.Proofs.Placing
import Stencil.Proofs.Recency
import Stencil.Proofs.Extension
import Stencil.Proofs.Naming
import Stencil.Proofs.Reaching
import Stencil.Proofs.Gathering
import Stencil.Proofs.Judging
import Stencil.Proofs.Literals
import Stencil.Proofs.Vacancies
import Stencil.Proofs.Comparing
import Stencil.Proofs.Handling
import Stencil.Proofs.Wholeness
import Stencil.Proofs.Pairing
import Stencil.Proofs.Composing
import Stencil.Proofs.Enclosing
import Stencil.Proofs.Splitting
import Stencil.Proofs.Heading
import Stencil.Proofs.Piping
import Stencil.Proofs.Entities
import Stencil.Proofs.Lowering
import Stencil.Proofs.Overruns
import Stencil.Proofs.Refusals
import Stencil.Proofs.Covering
import Stencil.Proofs.Overlaying
import Stencil.Proofs.Confining
import Stencil.Proofs.Rereading
import Stencil.Proofs.Ranking
import Stencil.Proofs.Counting
import Stencil.Proofs.Resuming
import Stencil.Descent
import Stencil.Expr.Descent
import Stencil.Markup.Descent
import Stencil.Proofs.Consuming
