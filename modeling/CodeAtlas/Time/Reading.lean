import CodeAtlas.Time.Moment

/-!
Reading moments from their written forms. Besides the form that moments are written in, the date
may be compact or name a week, the time may be compact, shorter or missing, and any character may
stand between the two.
-/

namespace CodeAtlas.Time

def digits? (text : List Char) : Option Nat :=
  if !text.isEmpty && text.all Char.isDigit then
    some (text.foldl (fun value char => value * 10 + (char.toNat - 48)) 0)
  else none

def twoDigits? : List Char → Option (Nat × List Char)
  | first :: second :: rest => do return (← digits? [first, second], rest)
  | _ => none

def dateEnd? (text : List Char) : Option Nat :=
  let at? (index : Nat) (char : Char) : Bool := text[index]? == some char
  let digitAt (index : Nat) : Bool := (text[index]?).any Char.isDigit
  if text.length == 7 then some 7
  else if at? 4 '-' then
    if at? 5 'W' then
      if at? 8 '-' then
        if text.length == 9 then none
        else some (if digitAt 10 then 8 else 10)
      else some 8
    else some 10
  else if at? 4 'W' then
    let stop := 7 + ((text.drop 7).takeWhile Char.isDigit).length
    some (if stop < 9 then stop else if stop % 2 == 0 then 7 else 8)
  else some 8

/-- Reads a date: year, month and day, or year, week and day of the week, with dashes throughout or
without any. -/
def date? (text : List Char) : Option Date := do
  let year ← digits? (text.take 4)
  let dashed := text[4]? == some '-'
  let skip (text : List Char) : Option (List Char) :=
    if (text.head? == some '-') == dashed then some (if dashed then text.drop 1 else text) else none
  let rest ← skip (text.drop 4)
  if rest.head? == some 'W' then
    let (week, rest) ← twoDigits? (rest.drop 1)
    if rest.isEmpty then Date.ofWeek? year week 1
    else
      let rest ← skip rest
      if rest.length == 1 then Date.ofWeek? year week (← digits? rest) else none
  else
    let (month, rest) ← twoDigits? rest
    let rest ← skip rest
    if rest.length == 2 then
      let date : Date := ⟨year, month, ← digits? rest⟩
      if date.isValid then some date else none
    else none

/-- What was read of a clock: its parts, and whether nothing was left unread. -/
structure ClockReading where
  hours : Nat
  minutes : Nat := 0
  seconds : Nat := 0
  fraction : Nat := 0
  isWhole : Bool := true

def ClockReading.ticks (reading : ClockReading) : Nat :=
  reading.hours * hour + reading.minutes * minute + reading.seconds * second + reading.fraction

/-- Reads a fraction of a second; six digits count, further ones are read over. -/
def fraction? (reading : ClockReading) (text : List Char) : Option ClockReading := do
  let value ← digits? (text.take 6)
  return { reading with
    fraction := value * Nat.pow 10 (6 - text.length)
    isWhole := (text.drop 6).all Char.isDigit }

/-- Goes on after two digits. A text that ends here is read, and one more byte is left unread.
Before a further part stands a colon, or nothing at all where the first part has none after it; a
point or comma starts the fraction. -/
def afterPart (colons : Bool) (reading : ClockReading) (text : List Char)
    (next : List Char → Option ClockReading) : Option ClockReading :=
  match text with
  | [] => some reading
  | [char] => if char.toNat < 128 then some { reading with isWhole := false } else none
  | char :: rest =>
    if colons && char == ':' then next rest
    else if char == '.' || char == ',' then fraction? reading rest
    else if colons then none
    else next text

/-- Reads hours, minutes, seconds and a fraction of a second. Parts may be missing at the end, and
the colons may be missing altogether. -/
def clock? (text : List Char) : Option ClockReading := do
  let (hours, text) ← twoDigits? text
  let colons := text.head? == some ':'
  afterPart colons { hours } text fun text => do
    let (minutes, text) ← twoDigits? text
    afterPart colons { hours, minutes } text fun text => do
      let (seconds, text) ← twoDigits? text
      afterPart colons { hours, minutes, seconds } text (fraction? { hours, minutes, seconds })

/-- Reads how far a clock is ahead, after the sign; it is less than a day. A distance below a second
is none. -/
def ahead? (negative : Bool) (text : List Char) : Option Int := do
  let reading ← clock? text
  let ticks : Int := if reading.ticks < second then 0 else reading.ticks
  if reading.isWhole && ticks < day then return if negative then -ticks else ticks else none

def timeOfDay? (text : List Char) : Option (Nat × Option Int) := do
  let isSign (char : Char) : Bool := char == '+' || char == '-' || char == 'Z'
  let reading ← clock? (text.takeWhile (!isSign ·))
  if reading.hours ≥ 24 || reading.minutes ≥ 60 || reading.seconds ≥ 60 then none
  match text.dropWhile (!isSign ·) with
  | [] => if reading.isWhole then return (reading.ticks, none) else none
  | 'Z' :: rest => if rest.isEmpty then return (reading.ticks, some 0) else none
  | sign :: rest => return (reading.ticks, some (← ahead? (sign == '-') rest))

def Moment.ofText? (text : String) : Option Moment := do
  let chars := text.toList
  if chars.length < 7 then none
  let stop ← dateEnd? chars
  let date ← date? (chars.take stop)
  let start : Int := (date.number - 1 : Nat) * day
  if (chars.drop stop).isEmpty then return ⟨start, none⟩
  let (ticks, ahead) ← timeOfDay? (chars.drop (stop + 1))
  return ⟨start + ticks, ahead⟩

def Moment.ofJson (value : Json) : Except Fault Moment := do
  match Moment.ofText? (← value.string) with
  | some moment => return moment
  | none => throw .badValue

end CodeAtlas.Time
