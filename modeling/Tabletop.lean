import Tabletop.Board.Basic
import Tabletop.Board.Cells
import Tabletop.Board.DropGame
import Tabletop.Board.DropGame.Score
import Tabletop.Board.Opponent
import Tabletop.Board.SowingGame
import Tabletop.Board.SowingGame.Search
import Tabletop.Board.ThreeInARow
import Tabletop.Board.ThreeInARow.Search
import Tabletop.Command.Basic
import Tabletop.Command.Duel
import Tabletop.Command.Files
import Tabletop.Command.Options
import Tabletop.Command.Output
import Tabletop.Command.Payload
import Tabletop.Command.Play
import Tabletop.Command.Run
import Tabletop.Json.Basic
import Tabletop.Json.Passage
import Tabletop.Json.Reader
import Tabletop.Json.Scalar
import Tabletop.Json.Shape
import Tabletop.Json.Writer
import Tabletop.Main
import Tabletop.Match.Basic
import Tabletop.Match.Handle
import Tabletop.Match.Play
import Tabletop.Match.SavedGame
import Tabletop.Match.Series
import Tabletop.Match.Session
import Tabletop.Match.Settings
import Tabletop.Match.Source
import Tabletop.Match.Turn
import Tabletop.Number.Binary
import Tabletop.Number.Decimal
import Tabletop.Number.Layout
import Tabletop.Number.Shortest
import Tabletop.Payload.Basic
import Tabletop.Payload.Constraint
import Tabletop.Payload.Formula
import Tabletop.Payload.Formula.Grammar
import Tabletop.Payload.Formula.Outline
import Tabletop.Payload.Formula.Token
import Tabletop.Payload.Normal
import Tabletop.Payload.Problem
import Tabletop.Payload.Variable
import Tabletop.Payload.Wire
import Tabletop.Proofs.Board.Ongoing
import Tabletop.Proofs.Match.Call
import Tabletop.Proofs.Match.Change
import Tabletop.Proofs.Match.Change.Event
import Tabletop.Proofs.Match.Change.Turn
import Tabletop.Proofs.Match.Failure
import Tabletop.Proofs.Match.Phase
import Tabletop.Proofs.Match.Round
import Tabletop.Proofs.Match.Score
import Tabletop.Random.Stream
import Tabletop.Scoring.Defaults
import Tabletop.Scoring.Result
import Tabletop.Scoring.Run
import Tabletop.Scoring.Settings
import Tabletop.Script.Evaluation
import Tabletop.Script.Fault
import Tabletop.Script.Library.Array
import Tabletop.Script.Library.Global
import Tabletop.Script.Library.Text
import Tabletop.Script.Operator
import Tabletop.Script.Position
import Tabletop.Script.Session
import Tabletop.Script.Slot
import Tabletop.Script.Token
import Tabletop.Script.Token.Scan
import Tabletop.Script.Tree
import Tabletop.Script.Tree.Grammar
import Tabletop.Script.Tree.Outline
import Tabletop.Script.Value
import Tabletop.Script.Value.Json
import Tabletop.Script.Value.Number
import Tabletop.Script.Value.Text
import Tabletop.Solver.Basic
import Tabletop.Solver.Reply
import Tabletop.Text.Basic
import Tabletop.Text.Casing
import Tabletop.Text.Classes
import Tabletop.Text.Index
import Tabletop.Proofs.Board.Choice
import Tabletop.Proofs.Match.Locked
import Tabletop.Proofs.Payload.Names
import Tabletop.Proofs.Payload.Normal
import Tabletop.Proofs.Script.Console
import Tabletop.Proofs.Script.Link
import Tabletop.Proofs.Script.Link.Library
import Tabletop.Proofs.Script.Link.Evaluation
import Tabletop.Proofs.Script.Number
import Tabletop.Proofs.Script.Termination
import Tabletop.Proofs.Script.Render
import Tabletop.Proofs.Script.Wider
import Tabletop.Proofs.Scoring.Limits
import Tabletop.Proofs.Text.Trim
import Tabletop.Proofs.Text.Span
import Tabletop.Proofs.Payload.Blanks
import Tabletop.Proofs.Payload.Value
import Tabletop.Proofs.Match.Remote
import Tabletop.Proofs.Number.Digits
import Tabletop.Proofs.Number.Rounding
import Tabletop.Proofs.Number.Packing
import Tabletop.Proofs.Number.Reading
import Tabletop.Proofs.Number.Shortest
import Tabletop.Proofs.Number.Whole
import Tabletop.Proofs.Json.Scalar
import Tabletop.Proofs.Json.Float
import Tabletop.Proofs.Json.Spelling
import Tabletop.Proofs.Json.Written
import Tabletop.Proofs.Json.Sorted
import Tabletop.Proofs.Payload.Wire
import Tabletop.Proofs.Payload.Shown
import Tabletop.Proofs.Payload.Declared
import Tabletop.Proofs.Command.Printed
import Tabletop.Proofs.Text.Size
import Tabletop.Proofs.Number.Length
import Tabletop.Proofs.Json.Size
import Tabletop.Proofs.Script.Fits.Token
import Tabletop.Proofs.Script.Fits.Tree
import Tabletop.Proofs.Script.Fits.Parts
import Tabletop.Proofs.Script.Fits.Memory
import Tabletop.Proofs.Script.Fits.Library
import Tabletop.Proofs.Script.Room
import Tabletop.Proofs.Scoring.Strings
import Tabletop.Proofs.Board.Seeds
import Tabletop.Proofs.Board.Ending
import Tabletop.Proofs.Command.Rounds
import Tabletop.Proofs.Script.Nesting
import Tabletop.Proofs.Script.Parts
import Tabletop.Proofs.Script.Invariant
import Tabletop.Proofs.Script.Invariant.Copies
import Tabletop.Proofs.Script.Invariant.Evaluation
import Tabletop.Proofs.Script.Reads
import Tabletop.Proofs.Script.Invariant.Callbacks
import Tabletop.Proofs.Script.Lengths
import Tabletop.Proofs.Script.Lengths.Library
import Tabletop.Proofs.Scoring.Arrays
import Tabletop.Proofs.Board.Over
import Tabletop.Proofs.Board.Saved
import Tabletop.Proofs.Match.Saved
import Tabletop.Proofs.Match.Tiers
import Tabletop.Proofs.Match.Refusal
import Tabletop.Proofs.Match.Log
import Tabletop.Proofs.Match.Session.Course
import Tabletop.Proofs.Match.Session.Turns
import Tabletop.Proofs.Match.Session.Updates
import Tabletop.Proofs.Payload.Grammar
import Tabletop.Proofs.Match.Opponents
import Tabletop.Proofs.Command.Series
import Tabletop.Proofs.Payload.Owners
import Tabletop.Proofs.Script.Trace
import Tabletop.Proofs.Script.Place
import Tabletop.Proofs.Script.Moved
import Tabletop.Proofs.Script.Following
import Tabletop.Proofs.Script.Following.Grammar
import Tabletop.Proofs.Script.Cut
import Tabletop.Proofs.Script.Substitution
import Tabletop.Proofs.Board.Lines
import Tabletop.Proofs.Board.Drops
import Tabletop.Proofs.Board.Sowing
import Tabletop.Proofs.Board.Pruning
import Tabletop.Proofs.Board.Wins
import Tabletop.Proofs.Payload.Depth
import Tabletop.Proofs.Payload.Texts
import Tabletop.Proofs.Payload.Exact
import Tabletop.Proofs.Number.Sums
import Tabletop.Proofs.Scoring.Selection
import Tabletop.Proofs.Scoring.Weights
import Tabletop.Proofs.Scoring.Variables
import Tabletop.Proofs.Payload.Counts
import Tabletop.Proofs.Script.Conversion
import Tabletop.Proofs.Script.RoundTrip
import Tabletop.Proofs.Script.Depth
import Tabletop.Proofs.Script.Slots
import Tabletop.Proofs.Script.Replacing
import Tabletop.Proofs.Solver.Reply
import Tabletop.Proofs.Number.Counting
import Tabletop.Proofs.Script.Characters
import Tabletop.Proofs.Script.Arrow
import Tabletop.Proofs.Script.Lexemes
