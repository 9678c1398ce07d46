import TinyC.Token.Session
import TinyC.Parse.Session
import TinyC.Tree.Printer
import TinyC.Assembly.Session
import TinyC.Main
import TinyC.Proofs.Source.Place
import TinyC.Proofs.Token.Lexis
import TinyC.Proofs.Token.Tiling
import TinyC.Proofs.Token.Layout
import TinyC.Proofs.Parse.Grammar
import TinyC.Proofs.Parse.Stream
import TinyC.Proofs.Parse.Acceptance
import TinyC.Proofs.Parse.Viability
import TinyC.Proofs.Parse.Rendering
import TinyC.Proofs.Assembly.Machine
import TinyC.Proofs.Assembly.Decoding
import TinyC.Proofs.Assembly.Evaluation
import TinyC.Proofs.Assembly.Emission
import TinyC.Proofs.Compile.Preservation
import TinyC.Proofs.Compile.Outcome
import TinyC.Proofs.Compile.FirstFault
import TinyC.Proofs.Source.Lines
import TinyC.Proofs.Token.Span
import TinyC.Proofs.Token.Session
import TinyC.Proofs.Parse.SourceLine
import TinyC.Proofs.Compile.Tally
import TinyC.Proofs.Compile.Report
import TinyC.Proofs.Parse.Lockstep
import TinyC.Proofs.Parse.Session
import TinyC.Proofs.Compile.Dependence
import TinyC.Proofs.Compile.Form
import TinyC.Proofs.Command.Frame
import TinyC.Proofs.Command.Printing
import TinyC.Proofs.Command.Modes
import TinyC.Proofs.Assembly.Defects
import TinyC.Proofs.Compile.Exactness
import TinyC.Proofs.Assembly.Comments
import TinyC.Proofs.Assembly.Rebuilding
import TinyC.Proofs.Assembly.Targets
import TinyC.Proofs.Assembly.Session
import TinyC.Proofs.Token.Separation
import TinyC.Proofs.Token.LineEndings
import TinyC.Proofs.Parse.Quotation
import TinyC.Proofs.Compile.LineEndings
import TinyC.Proofs.Tree.Preorder
import TinyC.Proofs.Tree.Visit
import TinyC.Proofs.Tree.Outline
import TinyC.Proofs.Tree.Program
import TinyC.Proofs.Parse.Places
import TinyC.Proofs.Token.Dump
import TinyC.Proofs.Tree.Description
import TinyC.Proofs.Assembly.Columns
import TinyC.Proofs.Assembly.Literals
