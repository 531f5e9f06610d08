import RunLoop.Attribute.Expand
import RunLoop.Attribute.Token
import RunLoop.Attribute.Token.Lexer
import RunLoop.Attribute.Token.Literal
import RunLoop.Attribute.Token.Printer
import RunLoop.Cell
import RunLoop.Debug
import RunLoop.Error
import RunLoop.Event
import RunLoop.Guest
import RunLoop.Join
import RunLoop.Log.Filter
import RunLoop.Log.Line
import RunLoop.Loop
import RunLoop.Machine.Perform
import RunLoop.Machine.Run
import RunLoop.Machine.Serve
import RunLoop.Machine.State
import RunLoop.Proofs.Awaited
import RunLoop.Proofs.Batches
import RunLoop.Proofs.Cancelled
import RunLoop.Proofs.CauseWalk
import RunLoop.Proofs.Cells
import RunLoop.Proofs.Census
import RunLoop.Proofs.Chores
import RunLoop.Proofs.Chronicle
import RunLoop.Proofs.CleanUp
import RunLoop.Proofs.Closed
import RunLoop.Proofs.Course
import RunLoop.Proofs.CurrentLoop
import RunLoop.Proofs.Delivery
import RunLoop.Proofs.Desk
import RunLoop.Proofs.Effect
import RunLoop.Proofs.Ensures
import RunLoop.Proofs.EntryArguments
import RunLoop.Proofs.EntryAttribute
import RunLoop.Proofs.EntryTest
import RunLoop.Proofs.Failures
import RunLoop.Proofs.Fifo
import RunLoop.Proofs.Follows
import RunLoop.Proofs.GetResult
import RunLoop.Proofs.HandOffs
import RunLoop.Proofs.Happening
import RunLoop.Proofs.Identities
import RunLoop.Proofs.IndexLaw
import RunLoop.Proofs.Interleaving
import RunLoop.Proofs.Isolation
import RunLoop.Proofs.JoinHandles
import RunLoop.Proofs.Journal
import RunLoop.Proofs.Layers
import RunLoop.Proofs.Ledger
import RunLoop.Proofs.Lineup
import RunLoop.Proofs.LiteralText
import RunLoop.Proofs.Lives
import RunLoop.Proofs.MainPanic
import RunLoop.Proofs.MainPolls
import RunLoop.Proofs.Marks
import RunLoop.Proofs.Milestones
import RunLoop.Proofs.Names
import RunLoop.Proofs.Ownership
import RunLoop.Proofs.Passage
import RunLoop.Proofs.PendingWakes
import RunLoop.Proofs.Play
import RunLoop.Proofs.PrivateLoop
import RunLoop.Proofs.Quotation
import RunLoop.Proofs.Refusals
import RunLoop.Proofs.Resumption
import RunLoop.Proofs.Roster
import RunLoop.Proofs.RoundRobin
import RunLoop.Proofs.Rounds
import RunLoop.Proofs.Rule
import RunLoop.Proofs.Segments
import RunLoop.Proofs.SlabMap
import RunLoop.Proofs.Slashes
import RunLoop.Proofs.Slots
import RunLoop.Proofs.Sources
import RunLoop.Proofs.SpawnOrder
import RunLoop.Proofs.Stack
import RunLoop.Proofs.StringLiteral
import RunLoop.Proofs.Teardown
import RunLoop.Proofs.TokenText
import RunLoop.Proofs.Twins
import RunLoop.Proofs.Veil
import RunLoop.Proofs.View
import RunLoop.Proofs.Waiters
import RunLoop.Proofs.WakeFloods
import RunLoop.Proofs.Wakers
import RunLoop.Proofs.Wakeups
import RunLoop.Proofs.Walk
import RunLoop.Proofs.Wrappers
import RunLoop.Proofs.Yielding
import RunLoop.Queue
import RunLoop.Reference
import RunLoop.Request
import RunLoop.Script.Body
import RunLoop.Script.Build
import RunLoop.Script.Code
import RunLoop.Script.Journal
import RunLoop.Script.Outcome
import RunLoop.Script.Reader
import RunLoop.Script.Registry
import RunLoop.Script.Routine
import RunLoop.Script.Statement
import RunLoop.Service
import RunLoop.Slab
import RunLoop.Slab.Trial
import RunLoop.Text.Blank
import RunLoop.Text.CharSet
import RunLoop.Text.Duration
import RunLoop.Text.Identifier
import RunLoop.Text.Quoted
import RunLoop.Text.Shown
import RunLoop.Value
import RunLoop.World
