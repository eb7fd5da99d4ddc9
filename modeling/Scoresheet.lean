import Scoresheet.Chess.Attack
import Scoresheet.Chess.Board
import Scoresheet.Chess.Fen
import Scoresheet.Chess.HashKeys
import Scoresheet.Chess.Move
import Scoresheet.Chess.Piece
import Scoresheet.Chess.Position
import Scoresheet.Chess.Resolve
import Scoresheet.Chess.San
import Scoresheet.Chess.Square
import Scoresheet.Chess.Zobrist
import Scoresheet.Database
import Scoresheet.Lineage
import Scoresheet.Log
import Scoresheet.Main
import Scoresheet.Mainline.Basic
import Scoresheet.Mainline.Replay
import Scoresheet.Mainline.Subset
import Scoresheet.Pgn.Event
import Scoresheet.Pgn.Game
import Scoresheet.Pgn.Movetext
import Scoresheet.Pgn.Tag
import Scoresheet.Pgn.Word
import Scoresheet.Proofs.Chess.BoardField
import Scoresheet.Proofs.Chess.LegalPlay
import Scoresheet.Proofs.Chess.Notation
import Scoresheet.Proofs.Chess.PositionRecord
import Scoresheet.Proofs.Chess.Respelling
import Scoresheet.Proofs.Lineage.BlankGames
import Scoresheet.Proofs.Lineage.Completeness
import Scoresheet.Proofs.Lineage.Duplicates
import Scoresheet.Proofs.Lineage.Neighbours
import Scoresheet.Proofs.Lineage.Order
import Scoresheet.Proofs.Lineage.Safety
import Scoresheet.Proofs.Lineage.Successors
import Scoresheet.Proofs.Mainline.Analyses
import Scoresheet.Proofs.Mainline.Answers
import Scoresheet.Proofs.Mainline.CleanText
import Scoresheet.Proofs.Mainline.Containment
import Scoresheet.Proofs.Mainline.Fingerprints
import Scoresheet.Proofs.Mainline.Followers
import Scoresheet.Proofs.Mainline.MoveLists
import Scoresheet.Proofs.Mainline.Normalization
import Scoresheet.Proofs.Mainline.PlainText
import Scoresheet.Proofs.Mainline.Playable
import Scoresheet.Proofs.Pgn.Boundary
import Scoresheet.Proofs.Pgn.GameText
import Scoresheet.Proofs.Pgn.GameTokens
import Scoresheet.Proofs.Pgn.Hearing
import Scoresheet.Proofs.Pgn.LineReader
import Scoresheet.Proofs.Pgn.MoveCount
import Scoresheet.Proofs.Pgn.NestedCalls
import Scoresheet.Proofs.Pgn.Nesting
import Scoresheet.Proofs.Pgn.PrintedGame
import Scoresheet.Proofs.Pgn.PrintedMovetext
import Scoresheet.Proofs.Pgn.PrintedTags
import Scoresheet.Proofs.Pgn.PrintedWords
import Scoresheet.Proofs.Pgn.Protocol
import Scoresheet.Proofs.Pgn.ScanText
import Scoresheet.Proofs.Pgn.SpareLines
import Scoresheet.Proofs.Pgn.ThinnedTags
import Scoresheet.Proofs.Pgn.Tokens
import Scoresheet.Proofs.Pgn.TranscriptShape
import Scoresheet.Proofs.Pgn.Utterance
import Scoresheet.Proofs.Pgn.Words
import Scoresheet.Proofs.Reading.BrokenStreams
import Scoresheet.Proofs.Reading.Completion
import Scoresheet.Proofs.Reading.Counting
import Scoresheet.Proofs.Reading.FailedStages
import Scoresheet.Proofs.Reading.Interleaving
import Scoresheet.Proofs.Reading.MalformedTags
import Scoresheet.Proofs.Reading.ParallelReading
import Scoresheet.Proofs.Reading.Progress
import Scoresheet.Proofs.Reading.SourceGames
import Scoresheet.Proofs.Reading.Tallies
import Scoresheet.Proofs.Reading.WorkerInvariants
import Scoresheet.Proofs.Reading.WorkerMoves
import Scoresheet.Proofs.Record.BadValues
import Scoresheet.Proofs.Record.Candidates
import Scoresheet.Proofs.Record.DateRanking
import Scoresheet.Proofs.Record.DigitRuns
import Scoresheet.Proofs.Record.Existence
import Scoresheet.Proofs.Record.GameFile
import Scoresheet.Proofs.Record.SharedAssembly
import Scoresheet.Proofs.Record.ShortNumerals
import Scoresheet.Proofs.Record.StoredMovetext
import Scoresheet.Proofs.Store.Batches
import Scoresheet.Proofs.Store.Ingestion
import Scoresheet.Proofs.Store.Notes
import Scoresheet.Proofs.Store.ParallelIngestion
import Scoresheet.Proofs.Store.Rows
import Scoresheet.Proofs.Store.SinkRuns
import Scoresheet.Proofs.Text.Joining
import Scoresheet.Proofs.Text.JsonText
import Scoresheet.Proofs.Text.LeadingZeros
import Scoresheet.Proofs.Text.Lines
import Scoresheet.Proofs.Text.Numerals
import Scoresheet.Proofs.Text.Replacing
import Scoresheet.Proofs.TimeControl.Apostrophes
import Scoresheet.Proofs.TimeControl.Counts
import Scoresheet.Proofs.TimeControl.GameMinutes
import Scoresheet.Proofs.TimeControl.Guesses
import Scoresheet.Proofs.TimeControl.MinuteWording
import Scoresheet.Proofs.TimeControl.NumeralFirst
import Scoresheet.Proofs.TimeControl.OversizedNumerals
import Scoresheet.Proofs.TimeControl.PlusSigns
import Scoresheet.Proofs.TimeControl.Readings
import Scoresheet.Proofs.TimeControl.Rereading
import Scoresheet.Proofs.TimeControl.StandardForm
import Scoresheet.Proofs.TimeControl.Sums
import Scoresheet.Proofs.TimeControl.Tidying
import Scoresheet.Proofs.TimeControl.WholeMinutes
import Scoresheet.Proofs.TimeControl.WordingNumerals
import Scoresheet.Reading.Diagnostics
import Scoresheet.Reading.Run
import Scoresheet.Reading.SourceReading
import Scoresheet.Reading.Workers
import Scoresheet.Record.Assembly
import Scoresheet.Record.Basic
import Scoresheet.Record.ClockTime
import Scoresheet.Record.Conversion
import Scoresheet.Record.Date
import Scoresheet.Settings
import Scoresheet.Source.Basic
import Scoresheet.Source.FileTree
import Scoresheet.Source.Glob
import Scoresheet.Source.Wildcard
import Scoresheet.Store.Row
import Scoresheet.Store.Sink
import Scoresheet.Text.Basic
import Scoresheet.Text.Case
import Scoresheet.Text.DecimalDigit
import Scoresheet.Text.Json
import Scoresheet.Text.Numeral
import Scoresheet.Text.Printable
import Scoresheet.Text.Quoted
import Scoresheet.Text.Replace
import Scoresheet.Text.Utf8
import Scoresheet.Text.WordChar
import Scoresheet.TimeControl.Basic
import Scoresheet.TimeControl.FreeText
import Scoresheet.TimeControl.Reading
import Scoresheet.TimeControl.Strict
import Scoresheet.TimeControl.Template
import Scoresheet.TimeControl.Tidy
import Scoresheet.TimeControl.Wording
