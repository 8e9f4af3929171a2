import Automata.Automaton
import Automata.Classification
import Automata.CommandLine.Options
import Automata.CommandLine.Report
import Automata.CommandLine.Session
import Automata.Dot
import Automata.Error
import Automata.Files.Catalogue
import Automata.Files.Path
import Automata.Files.System
import Automata.Files.Tree
import Automata.Graph
import Automata.Graph.Index
import Automata.Journal
import Automata.Json.Codec
import Automata.Json.Token
import Automata.Json.Value
import Automata.Main
import Automata.Random.ChaCha
import Automata.Random.Draw
import Automata.Random.Sample
import Automata.Random.Words
import Automata.Reachability
import Automata.Run
import Automata.Simulator
import Automata.Specification.Diagnostic
import Automata.Specification.Grammar
import Automata.Specification.Peg
import Automata.Specification.Reading
import Automata.Specification.Writing
import Automata.StateSet
import Automata.Text.Display
import Automata.Text.Printable
import Automata.Text.Quoted
import Automata.Validation
import Automata.Proofs.Edges
import Automata.Proofs.Moves
import Automata.Proofs.Search
import Automata.Proofs.ActiveSet
import Automata.Proofs.Runs
import Automata.Proofs.Language
import Automata.Proofs.Safety
import Automata.Proofs.Matching
import Automata.Proofs.Notation
import Automata.Proofs.Tokens
import Automata.Proofs.Lines
import Automata.Proofs.Recognition
import Automata.Proofs.Defects
import Automata.Proofs.Outcomes
import Automata.Proofs.RoundTrip
import Automata.Proofs.WrittenSize
import Automata.Proofs.Strategies
import Automata.Proofs.Configurations
import Automata.Proofs.Calls
import Automata.Proofs.Morphisms
import Automata.Proofs.Extension
import Automata.Proofs.Presentation
import Automata.Proofs.Failures
import Automata.Proofs.Histories
import Automata.Proofs.Draws
import Automata.Proofs.Reachability
import Automata.Proofs.Unreachable
import Automata.Proofs.Closure
import Automata.Proofs.Determinism
import Automata.Proofs.Representation
import Automata.Proofs.Quoting
import Automata.Proofs.Reports
import Automata.Proofs.Drawing
import Automata.Proofs.Legibility
import Automata.Proofs.Samples
import Automata.Proofs.Steering
import Automata.Proofs.Inputs
import Automata.Proofs.Layout
import Automata.Proofs.Paths
import Automata.Proofs.Trees
import Automata.Proofs.Directories
import Automata.Proofs.Spans
import Automata.Proofs.SyntaxTrees
import Automata.Proofs.JsonTexts
import Automata.Proofs.Printouts
import Automata.Proofs.Sessions
import Automata.Proofs.Serialization
