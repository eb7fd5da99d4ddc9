import Scoresheet.Record.ClockTime
import Scoresheet.Record.Date

/-!
# Game records

What is kept of one game: its header values, converted where they are numbers, dates or times, its
movetext in plain form, and what was wrong with it.
-/

namespace Scoresheet

/-- The record of one game. -/
structure Record where
  event : Option Text
  site : Option Text
  white : Option Text
  black : Option Text
  result : Option Text
  whiteTitle : Option Text
  blackTitle : Option Text
  whiteElo : Option Int
  blackElo : Option Int
  utcDate : Option Date
  utcTime : Option ClockTime
  eco : Option Text
  opening : Option Text
  termination : Option Text
  timeControl : Option Text
  movetext : Text
  parseError : Option Text
  source : Option Text
  outcome : Option Text
  deriving DecidableEq, Repr

end Scoresheet
