import ScopedLisp.Named
import ScopedLisp.Number.Basic
import ScopedLisp.Number.Rounding
import ScopedLisp.Number.Shortest
import ScopedLisp.Number.Numeral
import ScopedLisp.Number.Written
import ScopedLisp.Text.Range
import ScopedLisp.Text.Space
import ScopedLisp.Text.Digit
import ScopedLisp.Text.Printable
import ScopedLisp.Text.CaseTable
import ScopedLisp.Text.Case
import ScopedLisp.Text.Quoted
import ScopedLisp.Value
import ScopedLisp.Value.Written
import ScopedLisp.Token
import ScopedLisp.Reader
import ScopedLisp.TokenStream
import ScopedLisp.Operator
import ScopedLisp.Scoping
import ScopedLisp.Fault
import ScopedLisp.Store
import ScopedLisp.Effect
import ScopedLisp.Evaluation
import ScopedLisp.Interpreter
import ScopedLisp.Proofs.Chains
import ScopedLisp.Proofs.Confinement
import ScopedLisp.Proofs.Likeness
import ScopedLisp.Proofs.FlatEvaluation
import ScopedLisp.Proofs.DynamicScoping
import ScopedLisp.Proofs.Correspondence
import ScopedLisp.Proofs.CorrespondingRuns
import ScopedLisp.Proofs.SharedCode
import ScopedLisp.Proofs.PairedFrames
import ScopedLisp.Proofs.Renaming
import ScopedLisp.Proofs.ParameterRenaming
import ScopedLisp.Proofs.Relocation
import ScopedLisp.Proofs.Isolation
import ScopedLisp.Proofs.ModeAgreement
import ScopedLisp.Proofs.Nesting
import ScopedLisp.Proofs.Tokenization
import ScopedLisp.Proofs.Lexemes
import ScopedLisp.Proofs.Separators
import ScopedLisp.Proofs.Parsing
import ScopedLisp.Proofs.PlainQueue
import ScopedLisp.Proofs.ReadingBack
import ScopedLisp.Proofs.PlainNotation
import ScopedLisp.Proofs.TypingBack
import ScopedLisp.Proofs.Invariants
import ScopedLisp.Proofs.TwoPhaseCalls
import ScopedLisp.Proofs.WellFormed
import ScopedLisp.Proofs.Sessions
import ScopedLisp.Proofs.OneLine
import ScopedLisp.Proofs.Rooms
import ScopedLisp.Proofs.Sequences
import ScopedLisp.Proofs.Visibility
import ScopedLisp.Proofs.UnreadNames
import ScopedLisp.Proofs.Unreachable
import ScopedLisp.Proofs.WriteHistory
import ScopedLisp.Proofs.AmbientBlocks
import ScopedLisp.Proofs.NestedOperators
import ScopedLisp.Proofs.LazyClauses
import ScopedLisp.Proofs.LevelledEvaluation
import ScopedLisp.Proofs.FrameDepths
import ScopedLisp.Proofs.FrameHeaps
import ScopedLisp.Proofs.WatchedEvaluation
import ScopedLisp.Shell.Path
import ScopedLisp.Shell.Disk
import ScopedLisp.Shell.Log
import ScopedLisp.Shell.Settings
import ScopedLisp.Shell.History
import ScopedLisp.Shell.Options
import ScopedLisp.Shell.Dialogue
import ScopedLisp.Proofs.Dialogues
import ScopedLisp.Shell.Launch
import ScopedLisp.Proofs.HistoryFiles
import ScopedLisp.Main
