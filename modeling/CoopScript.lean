import CoopScript.Class.Intrinsic
import CoopScript.Class.Table
import CoopScript.CommandLine
import CoopScript.Diagnostic.Basic
import CoopScript.Diagnostic.Cause
import CoopScript.Extension.Catalogue
import CoopScript.Extension.Expression
import CoopScript.Extension.Recognizer
import CoopScript.Extension.Statement
import CoopScript.Frame.Arena
import CoopScript.Grammar.Cursor
import CoopScript.Grammar.Expression
import CoopScript.Grammar.Form
import CoopScript.Grammar.Parse
import CoopScript.Grammar.Standard
import CoopScript.Grammar.Statement
import CoopScript.Host.Action
import CoopScript.Host.Answer
import CoopScript.Host.Operand
import CoopScript.Host.Perform
import CoopScript.Interpreter
import CoopScript.Machine.Builtin
import CoopScript.Machine.Call
import CoopScript.Machine.Engine
import CoopScript.Machine.Exec
import CoopScript.Machine.Memory
import CoopScript.Machine.Runner
import CoopScript.Machine.Scheduler
import CoopScript.Machine.State
import CoopScript.Main
import CoopScript.NameMap
import CoopScript.Number.Binary64
import CoopScript.Number.Numeral
import CoopScript.Number.Shortest
import CoopScript.Program.Node
import CoopScript.Program.Operator
import CoopScript.Proofs.Await.Unmarked
import CoopScript.Proofs.Class.Ancestry
import CoopScript.Proofs.Class.Inheritance
import CoopScript.Proofs.Class.Layers
import CoopScript.Proofs.Conduct.Basic
import CoopScript.Proofs.Conduct.Language
import CoopScript.Proofs.Control.Lines
import CoopScript.Proofs.Control.Mirror
import CoopScript.Proofs.Control.Refinement
import CoopScript.Proofs.Control.Result
import CoopScript.Proofs.Event.Course
import CoopScript.Proofs.Event.Roster
import CoopScript.Proofs.Exit.Block
import CoopScript.Proofs.Exit.Call
import CoopScript.Proofs.Exit.Language
import CoopScript.Proofs.Exit.Leeway
import CoopScript.Proofs.Exit.Memory
import CoopScript.Proofs.Exit.Primitive
import CoopScript.Proofs.Exit.Schedule
import CoopScript.Proofs.Exit.Session
import CoopScript.Proofs.Exit.Tame
import CoopScript.Proofs.Exit.Tends
import CoopScript.Proofs.Fault.Bound
import CoopScript.Proofs.Fault.Call
import CoopScript.Proofs.Fault.Clears
import CoopScript.Proofs.Fault.Language
import CoopScript.Proofs.Fault.Origin
import CoopScript.Proofs.Fault.Primitive
import CoopScript.Proofs.Fault.Reading
import CoopScript.Proofs.Fault.Schedule
import CoopScript.Proofs.Fault.Session
import CoopScript.Proofs.Fault.Source
import CoopScript.Proofs.Frame.Assignment
import CoopScript.Proofs.Frame.Chain
import CoopScript.Proofs.Frame.Kept
import CoopScript.Proofs.Frame.Lasting
import CoopScript.Proofs.Frame.Release
import CoopScript.Proofs.Frame.Safety
import CoopScript.Proofs.Frame.Slot
import CoopScript.Proofs.Frame.Tenancy
import CoopScript.Proofs.Grammar.Bracket
import CoopScript.Proofs.Grammar.Canonical
import CoopScript.Proofs.Grammar.Climb
import CoopScript.Proofs.Grammar.Form
import CoopScript.Proofs.Grammar.Image
import CoopScript.Proofs.Grammar.Nesting
import CoopScript.Proofs.Grammar.Progress
import CoopScript.Proofs.Grammar.Roundtrip
import CoopScript.Proofs.Grammar.Shown
import CoopScript.Proofs.Layout.Grammar
import CoopScript.Proofs.Layout.Joint
import CoopScript.Proofs.Layout.Reading
import CoopScript.Proofs.Layout.Source
import CoopScript.Proofs.Lens.Call
import CoopScript.Proofs.Lens.Fits
import CoopScript.Proofs.Lens.Language
import CoopScript.Proofs.Lens.Memory
import CoopScript.Proofs.Lens.Primitive
import CoopScript.Proofs.Lens.Schedule
import CoopScript.Proofs.Lens.Through
import CoopScript.Proofs.Lens.Value
import CoopScript.Proofs.Lens.Work
import CoopScript.Proofs.Machine.Background
import CoopScript.Proofs.Machine.Binding
import CoopScript.Proofs.Machine.Conversion
import CoopScript.Proofs.Machine.Halt
import CoopScript.Proofs.Machine.Primitive
import CoopScript.Proofs.Machine.Registry
import CoopScript.Proofs.Machine.Round
import CoopScript.Proofs.Queue.Fifo
import CoopScript.Proofs.Round.Block
import CoopScript.Proofs.Round.Conclude
import CoopScript.Proofs.Round.Follow
import CoopScript.Proofs.Round.Idle
import CoopScript.Proofs.Round.Pending
import CoopScript.Proofs.Round.Pieces
import CoopScript.Proofs.Round.Report
import CoopScript.Proofs.Round.Robin
import CoopScript.Proofs.Round.Rota
import CoopScript.Proofs.Rule.Addition
import CoopScript.Proofs.Rule.Engine
import CoopScript.Proofs.Rule.Held
import CoopScript.Proofs.Rule.Steady
import CoopScript.Proofs.Scope.Call
import CoopScript.Proofs.Scope.Guard
import CoopScript.Proofs.Scope.Language
import CoopScript.Proofs.Source.Cut
import CoopScript.Proofs.Source.Lines
import CoopScript.Proofs.Source.Literal
import CoopScript.Proofs.Source.Look
import CoopScript.Proofs.Source.Spacing
import CoopScript.Proofs.Stage.Block
import CoopScript.Proofs.Stage.Chain
import CoopScript.Proofs.Stage.Due
import CoopScript.Proofs.Stage.Exit
import CoopScript.Proofs.Stage.Language
import CoopScript.Proofs.Stage.Lawful
import CoopScript.Proofs.Stage.Ledger
import CoopScript.Proofs.Stage.Memory
import CoopScript.Proofs.Stage.Quiescence
import CoopScript.Proofs.Stage.Reachable
import CoopScript.Proofs.Stage.Run
import CoopScript.Proofs.Stage.Schedule
import CoopScript.Proofs.Stage.Settler
import CoopScript.Proofs.Stage.Sound
import CoopScript.Proofs.Stage.Step
import CoopScript.Proofs.Stage.Tandem
import CoopScript.Proofs.Stage.Tied
import CoopScript.Proofs.Stage.Twin
import CoopScript.Proofs.Stage.Waiting
import CoopScript.Proofs.Trait.Basic
import CoopScript.Proofs.Trait.Host
import CoopScript.Proofs.Trait.Language
import CoopScript.Proofs.Value.Plain
import CoopScript.Proofs.Value.Shared
import CoopScript.Proofs.Work.Call
import CoopScript.Proofs.Work.Course
import CoopScript.Proofs.Work.Host
import CoopScript.Proofs.Work.Language
import CoopScript.Proofs.Work.Mild
import CoopScript.Proofs.Work.Moment
import CoopScript.Proofs.Work.Primitive
import CoopScript.Proofs.Work.Schedule
import CoopScript.Proofs.Work.Session
import CoopScript.Proofs.Work.Settlement
import CoopScript.Proofs.Work.Tidy
import CoopScript.Proofs.Work.Told
import CoopScript.Repl
import CoopScript.Rule.Basic
import CoopScript.Rule.Expression
import CoopScript.Rule.Operation
import CoopScript.Rule.Standard
import CoopScript.Rule.Statement
import CoopScript.Source.LexRule
import CoopScript.Source.Lexer
import CoopScript.Source.Literal
import CoopScript.Source.Position
import CoopScript.Source.Recognizer
import CoopScript.Source.Token
import CoopScript.Task.Pool
import CoopScript.Task.Table
import CoopScript.Text.Backspace
import CoopScript.Text.Blank
import CoopScript.Text.Cluster
import CoopScript.Text.Invisible
import CoopScript.Text.Quoted
import CoopScript.Value.Basic
import CoopScript.Value.Equality
