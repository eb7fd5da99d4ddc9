import Scoresheet.Text.Case
import Scoresheet.Text.Replace
import Scoresheet.TimeControl.Strict
import Scoresheet.TimeControl.Wording

/-!
# Templates of informal time controls

Each template reads one kind of informal wording. It takes the numerals out of the wording; if all
of them are in range they become periods, with the base in minutes. If a base is out of range in
seconds, the wording is understood but the control is oversized.

The templates are tried in a fixed order (`infer`), and the first that understands the wording
counts.
-/

namespace Scoresheet

open Text

namespace TimeControl

/-! ## Guesses -/

/-- How a wording is understood. -/
structure Guess where
  how : Interpretation
  /-- The periods, the first of them apart; none if a base is out of range. -/
  periods : Option (Period × List Period)
  deriving DecidableEq, Repr

/-- What an attempt at a wording comes to. -/
abbrev Attempt := Except OversizedNumeral (Option Guess)

/-- The control of a guess. -/
def Guess.control (g : Guess) : TimeControl :=
  match g.periods with
  | some (first, later) => .periods first later true
  | none => .oversized

/-- The remarks on a guess. -/
def Guess.remarks (g : Guess) : List Remark :=
  .interpreted g.how :: (if g.periods.isNone then [.overflow] else [])

/-- A period with its base in seconds, if that is in range. -/
def secondsPeriod (seconds : Nat) (moves increment : Option Nat) : Option Period :=
  (inRange? seconds).map fun base => ⟨base, moves, increment⟩

/-- A period with its base in minutes, if that is in range in seconds. -/
def minutesPeriod (minutes : Nat) (moves increment : Option Nat) : Option Period :=
  secondsPeriod (minutes * 60) moves increment

/-- A guess of one period. -/
def Guess.single (how : Interpretation) (period : Option Period) : Guess :=
  ⟨how, period.map fun p => (p, [])⟩

/-- A guess of two periods. -/
def Guess.double (how : Interpretation) (first second : Option Period) : Guess :=
  ⟨how, first.bind fun p => second.map fun q => (p, [q])⟩

/-- A guess of a period for some moves and a period for the rest, both with the same increment. -/
def Guess.withRest (how : Interpretation) (moves base rest increment : Nat) : Guess :=
  .double how (minutesPeriod base (some moves) (some increment))
    (minutesPeriod rest none (some increment))

/-! ## Numerals -/

/-- The numbers of some numerals; none unless all are in range. -/
def readCounts (ts : List Text) : Except OversizedNumeral (Option (List Nat)) := do
  return (← ts.mapM readCount).mapM id

/-- A guess from the numerals that a template found. -/
def guessFrom (numerals : Option (List Text)) (build : List Nat → Option Guess) : Attempt :=
  match numerals with
  | none => .ok none
  | some ts => do return (← readCounts ts).bind build

/-! ## Game in so many minutes -/

/-- Runs of plus signs reduced to one sign. -/
def mergePlus : Text → Text
  | '+' :: '+' :: cs => mergePlus ('+' :: cs)
  | c :: cs => c :: mergePlus cs
  | [] => []

/-- What follows the word or letter for "game" and the sign after it, tidied. -/
def afterGame? (t : Text) : Option Text :=
  let lower := lower t
  (("game".toList.isPrefixOf? lower).or ("g".toList.isPrefixOf? lower)).map fun rest =>
    let rest := trimLeft rest
    let rest := match rest with
      | '/' :: cs => cs
      | ':' :: cs => cs
      | cs => cs
    let rest := replaceEach [(";+", "+"), (";", "+")] (trim rest)
    trim (mergePlus (replaceEach (plusSpacingAndTabs) rest))
where
  /-- Closes up the spaces and tabs around plus signs. -/
  plusSpacingAndTabs : List (String × String) :=
    [(" + ", "+"), ("+ ", "+"), (" +", "+"), ("\t+", "+"), ("+\t", "+")]

/-- The minutes of a game and the increment that may follow, as numerals. -/
def gameNumerals? (t : Text) : Option (Text × Option Text) := do
  let t ← afterGame? t
  let (base, t) ← digits? t
  match word? "+" t with
  | none => (ended? t).map fun _ => (base, none)
  | some t =>
    let (increment, t) ← number? t
    let t := maybe (fun t => (word? "inc" t).or ((oneOf? secondUnits t).bind addedPerMove?)) t
    (ended? t).map fun _ => (base, some increment)

/-- `G/45` or `game 5+3 inc`. An increment that is out of range is dropped. -/
def inferGame (t : Text) : Attempt :=
  match gameNumerals? t with
  | none => .ok none
  | some (base, increment) => do
    match ← readCount base with
    | none => return none
    | some minutes =>
      let increment ← match increment with
        | some i => readCount i
        | none => .ok none
      return some (.single .gameMinutes (minutesPeriod minutes none increment))

/-! ## Minutes and seconds with apostrophes -/

/-- The numerals of `90'+30''/move`. -/
def apostrophePerMove? (t : Text) : Option (List Text) := do
  let (base, t) ← number? t
  let t ← word? "'" t
  let t ← word? "+" t
  let (increment, t) ← number? t
  let t ← word? "''" t
  let t ← word? "/" t
  let t ← singleMove? t
  oneLine? t
  return [base, increment]

/-- `90'+30''/move`. -/
def inferApostrophePerMove (t : Text) : Attempt :=
  guessFrom (apostrophePerMove? (foldCase t)) fun
    | [base, increment] =>
      some (.single .apostrophePerMove (minutesPeriod base none (some increment)))
    | _ => none

/-- Takes the numerals of `90'/40 moves+30'` off a text; the word for moves may be obligatory. -/
def stageAndRest? (needsWord : Bool) (t : Text) : Option ((Text × Text × Text) × Text) := do
  let (base, t) ← number? t
  let t ← word? "'" t
  let t ← word? "/" t
  let (moves, t) ← number? t
  let movesWord := oneOf? ["moves", "move", "m"]
  let t ← if needsWord then movesWord t else some (maybe movesWord t)
  let t ← oneOf? ["+", "&"] t
  let (rest, t) ← number? t
  let t ← word? "'" t
  return ((base, moves, rest), t)

/-- The numerals of `90'/40+30'/g+30''`, up to the increment. -/
def stageRestIncrement? (t : Text) : Option (List Text × Text) := do
  let ((base, moves, rest), t) ← stageAndRest? false t
  let t ← word? "/" t
  let t ← oneOf? ["g", "end"] t
  let t ← oneOf? ["+", "&"] t
  let (increment, t) ← number? t
  return ([base, moves, rest, increment], t)

/-- The numerals of `90'/40+30'/g+30''/move`. -/
def compactWithMove? (t : Text) : Option (List Text) := do
  let (numerals, t) ← stageRestIncrement? t
  let t := maybe (oneOf? ["''", "'"]) t
  let t ← word? "/" t
  let t ← singleMove? t
  oneLine? t
  return numerals

/-- The numerals of `90'/40+30'/g+30''`. -/
def compactToEnd? (t : Text) : Option (List Text) := do
  let (numerals, t) ← stageRestIncrement? t
  let t ← word? "''" t
  ended? t
  return numerals

/-- The numerals of `90'/40m+30'+30'' bonus`. -/
def compactBonus? (t : Text) : Option (List Text) := do
  let ((base, moves, rest), t) ← stageAndRest? true t
  let t ← oneOf? ["+", "&"] t
  let (increment, t) ← number? t
  let t ← word? "''" t
  let t ← word? "bonus" t
  ended? (maybe (word? "increment") t)
  return [base, moves, rest, increment]

/-- The compact wordings of a stage, the rest and an increment. -/
def inferCompactFide (t : Text) : Attempt :=
  let build (how : Interpretation) : List Nat → Option Guess
    | [base, moves, rest, increment] => some (.withRest how moves base rest increment)
    | _ => none
  let t := foldCase t
  match (compactWithMove? t).or (compactToEnd? t) with
  | some numerals => guessFrom (some numerals) (build .compactFideApostrophe)
  | none => guessFrom (compactBonus? t) (build .compactFideBonus)

/-! ## Stages of forty moves -/

/-- The numerals of `90 min + 30 sec additional + 15 min after move 40`. -/
def fideAdditional? (t : Text) : Option (List Text) := do
  let (base, t) ← number? t
  let t ← oneOf? minuteUnits t
  let t ← word? "+" t
  let (increment, t) ← number? t
  let t ← oneOf? secondUnits t
  let t ← word? "additional" t
  let t ← word? "+" t
  let (rest, t) ← number? t
  let t ← oneOf? minuteUnits t
  let t ← word? "after" t
  let t ← word? "move" t
  let t ← word? "40" t
  ended? t
  return [base, increment, rest]

/-- `90 min + 30 sec additional + 15 min after move 40`. -/
def inferFideAdditional (t : Text) : Attempt :=
  guessFrom (fideAdditional? (foldCase t)) fun
    | [base, increment, rest] => some (.withRest .fideAdditional 40 base rest increment)
    | _ => none

/-- Takes the words after `90+30+30` off a text. -/
def triplePlusEnd? (t : Text) : Option Text :=
  match oneOf? secondUnits t with
  | some rest => perMove? rest
  | none => do
    let t ← word? "after" t
    let t ← word? "40" t
    oneOf? ["moves", "move"] t

/-- The numerals of `90+30+30 sec per move`. -/
def triplePlus? (t : Text) : Option (List Text) := do
  let (base, t) ← number? t
  let t ← word? "+" t
  let (rest, t) ← number? t
  let t ← word? "+" t
  let (increment, t) ← number? t
  let t ← triplePlusEnd? t
  ended? t
  return [base, rest, increment]

/-- `90+30+30 sec per move`. -/
def inferTriplePlus (t : Text) : Attempt :=
  guessFrom (triplePlus? (foldCase t)) fun
    | [base, rest, increment] => some (.withRest .compactFideTriplePlus 40 base rest increment)
    | _ => none

/-- The numerals of `90+30/30+30`. -/
def twoStageSlash? (t : Text) : Option (List Text) := do
  let (first, t) ← number? t
  let t ← word? "+" t
  let (firstIncrement, t) ← number? t
  let t ← word? "/" t
  let (second, t) ← number? t
  let t ← word? "+" t
  let (secondIncrement, t) ← number? t
  ended? t
  return [first, firstIncrement, second, secondIncrement]

/-- `90+30/30+30`. -/
def inferTwoStageSlash (t : Text) : Attempt :=
  guessFrom (twoStageSlash? t) fun
    | [first, i, second, j] =>
      some (.double .twoStageSlash (minutesPeriod first none (some i))
        (minutesPeriod second none (some j)))
    | _ => none

/-! ## Minutes with seconds for each move -/

/-- The numerals of `Standard: 15 min + 10 sec per move`. -/
def compactMinuteSecond? (t : Text) : Option (List Text) := do
  let (base, t) ← number? (maybe heading? t)
  let t ← word? "+" (maybe (oneOf? minuteUnits) t)
  let (increment, t) ← number? t
  incrementEnd? t
  return [base, increment]

/-- `15 min + 10 sec per move`. -/
def inferCompactMinuteSecond (t : Text) : Attempt :=
  guessFrom (compactMinuteSecond? (foldCase t)) fun
    | [base, increment] =>
      some (.single .compactMinuteSecond (minutesPeriod base none (some increment)))
    | _ => none

/-- Takes the minutes of a clock off a text: one digit, or two of which the first is at most five.
Digits after a full stop are passed over. -/
def clockMinutes? (t : Text) : Option (Text × Text) :=
  let fraction : Text → Text
    | '.' :: cs => ((digits? cs).map Prod.snd).getD ('.' :: cs)
    | cs => cs
  match trimLeft t with
  | c :: d :: cs =>
    if '0' ≤ c && c ≤ '5' && isDecimalDigit d then some ([c, d], fraction cs)
    else if isDecimalDigit c then some ([c], fraction (d :: cs)) else none
  | [c] => if isDecimalDigit c then some ([c], []) else none
  | [] => none

/-- The numerals of `1:30 + 30 sec`. -/
def clockStyle? (t : Text) : Option (List Text) := do
  let (hours, t) ← number? t
  let t ← word? ":" t
  let (minutes, t) ← clockMinutes? t
  let t ← word? "+" t
  let (increment, t) ← number? t
  incrementEnd? t
  return [hours, minutes, increment]

/-- `1:30 + 30 sec`, hours and minutes. -/
def inferClockStyle (t : Text) : Attempt :=
  guessFrom (clockStyle? (foldCase t)) fun
    | [hours, minutes, increment] =>
      some (.single .clockStyleBase
        (secondsPeriod (hours * 3600 + minutes * 60) none (some increment)))
    | _ => none

/-! ## Plain numbers -/

/-- Minutes with an apostrophe and seconds with two: `5'`, `3'+2''`, `30''`. -/
def inferApostrophes (t : Text) : Attempt :=
  match t.reverse with
  | '\'' :: '\'' :: reversed =>
    match cutAt '\'' reversed.reverse with
    | (minutes, some seconds) => do
      match ← readCount minutes with
      | none => return none
      | some m =>
        let seconds := match seconds with
          | '+' :: cs => cs
          | cs => cs
        let s ← if seconds.isEmpty then .ok (some 0) else readCount seconds
        return s.map fun s =>
          .single .apostropheNotation (minutesPeriod m none (some s))
    | (seconds, none) => do
      return (← readCount seconds).map fun s =>
        .single .apostropheNotation (secondsPeriod s none none)
  | '\'' :: reversed => do
    return (← readCount reversed.reverse).map fun m =>
      .single .apostropheNotation (minutesPeriod m none none)
  | _ => .ok none

/-- `3+2` with numbers so small that the base is meant in minutes, or `90+30`. -/
def inferSmallBase (t : Text) : Attempt :=
  match t.splitOn '+' with
  | [base, increment] => do
    let base ← readCount base
    let increment ← readCount increment
    match base, increment with
    | some b, some i =>
      let guess (how : Interpretation) : Guess := .single how (minutesPeriod b none (some i))
      if b < 60 && i ≤ 60 then return some (guess .smallBaseAsMinutes)
      else if (b == 75 || b == 90) && i == 30 then return some (guess .classicalAsMinutes)
      else return none
    | _, _ => return none
  | _ => .ok none

/-- A single small number, in minutes. -/
def inferSmallNumber (t : Text) : Attempt := do
  if t.any fun c => c == '+' || c == '/' || c == ':' then return none
  match ← readCount t with
  | some n => return if n < 60 then some (.single .smallNumberAsMinutes (minutesPeriod n none none))
      else none
  | none => return none

/-! ## The order of the templates -/

/-- The first guess that one of some attempts comes to. -/
def firstGuess (t : Text) : List (Text → Attempt) → Attempt
  | [] => .ok none
  | attempt :: attempts => do
    match ← attempt t with
    | some guess => return some guess
    | none => firstGuess t attempts

/-- Understands an informal wording by the first template that fits. -/
def infer (t : Text) : Attempt :=
  firstGuess t [inferGame, inferApostrophePerMove, inferCompactFide, inferFideAdditional,
    inferTriplePlus, inferTwoStageSlash, inferCompactMinuteSecond, inferClockStyle,
    inferApostrophes, inferSmallBase, inferSmallNumber]

end TimeControl

end Scoresheet
