import CodeAtlas.Proofs.Decimal
import CodeAtlas.Proofs.Path
import CodeAtlas.Proofs.Time.Calendar
import CodeAtlas.Time.Reading
import Mathlib.Data.List.TakeWhile

/-!
Moments that are written and read again. The main statement: the written form of what a clock shows,
at any moment up to the end of time, is read back as the same moment, except that a known distance
from the common time is read as none if it is below a second.
-/

namespace CodeAtlas.Time

open Decimal

variable {date : Date} {ticks : Nat} {ahead : Int} {moment : Moment}

/-! ## Digits -/

theorem digits?_of_digits {text : List Char} (filled : text ≠ [])
    (each : ∀ char ∈ text, char.isDigit = true) :
    digits? text = some (Decimal.valueFrom 0 text) := by
  have all : text.all Char.isDigit = true := List.all_eq_true.mpr each
  simp [digits?, filled, all, Decimal.valueFrom]

theorem digits?_paddedText {width value : Nat} (filled : 0 < width) (fits : value < 10 ^ width) :
    digits? (Decimal.paddedText width value).toList = some value := by
  have length := length_paddedText filled fits
  have nonempty : (Decimal.paddedText width value).toList ≠ [] := by
    intro empty
    rw [empty] at length
    exact absurd length.symm (Nat.ne_of_gt filled)
  rw [digits?_of_digits nonempty fun _ => isDigit_of_mem_paddedText, valueFrom_paddedText]

theorem exists_twoDigits {value : Nat} (fits : value < 100) :
    ∃ first second, (Decimal.paddedText 2 value).toList = [first, second] ∧
      first.isDigit = true ∧ second.isDigit = true ∧ digits? [first, second] = some value := by
  have read := @digits?_paddedText 2 value (by decide) fits
  have each := @isDigit_of_mem_paddedText 2 value
  rcases List.length_eq_two.mp (@length_paddedText 2 value (by decide) fits) with
    ⟨first, second, text⟩
  rw [text] at read each
  exact ⟨first, second, text, each (by simp), each (by simp), read⟩

theorem exists_fourDigits {value : Nat} (fits : value < 10000) :
    ∃ first second third fourth,
      (Decimal.paddedText 4 value).toList = [first, second, third, fourth] ∧
      digits? [first, second, third, fourth] = some value := by
  have read := @digits?_paddedText 4 value (by decide) fits
  have length := @length_paddedText 4 value (by decide) fits
  rcases text : (Decimal.paddedText 4 value).toList with _ | ⟨first, _ | ⟨second, _ | ⟨third, rest⟩⟩⟩
  · simp [text] at length
  · simp [text] at length
  · simp [text] at length
  · rw [text] at read length
    rcases List.length_eq_one_iff.mp (by simpa using length) with ⟨fourth, rfl⟩
    exact ⟨first, second, third, fourth, rfl, read⟩

/-! ## Dates -/

theorem Date.bounds (valid : date.isValid = true) :
    date.year < 10000 ∧ date.month < 100 ∧ date.day < 100 := by
  simp only [Date.isValid, Bool.and_eq_true, decide_eq_true_eq, Option.any_eq_true] at valid
  rcases valid with ⟨⟨⟨⟨_, year⟩, _⟩, _⟩, length, atMonth, day⟩
  have twelve : (monthLengths date.year).length = 12 := rfl
  have each : ∀ other ∈ monthLengths date.year, other ≤ 31 := by
    intro other member
    simp only [monthLengths, List.mem_cons, List.not_mem_nil, or_false] at member
    split at member <;> omega
  have month := (List.getElem?_eq_some_iff.mp atMonth).1
  have short := each length (List.mem_of_getElem? atMonth)
  omega

theorem date?_dashed (valid : date.isValid = true) :
    ∃ first second third fourth fifth sixth seventh eighth,
      (Decimal.paddedText 4 date.year).toList ++ '-' :: ((Decimal.paddedText 2 date.month).toList ++
        '-' :: (Decimal.paddedText 2 date.day).toList) =
        [first, second, third, fourth, '-', fifth, sixth, '-', seventh, eighth] ∧
      fifth ≠ 'W' ∧
      date? [first, second, third, fourth, '-', fifth, sixth, '-', seventh, eighth] = some date := by
  rcases Date.bounds valid with ⟨yearFits, monthFits, dayFits⟩
  rcases exists_fourDigits yearFits with ⟨first, second, third, fourth, yearText, year⟩
  rcases exists_twoDigits monthFits with ⟨fifth, sixth, monthText, isDigit, _, month⟩
  rcases exists_twoDigits dayFits with ⟨seventh, eighth, dayText, _, _, day⟩
  have noWeek : fifth ≠ 'W' := by
    rintro rfl
    cases isDigit
  refine ⟨first, second, third, fourth, fifth, sixth, seventh, eighth, ?_, noWeek, ?_⟩
  · rw [yearText, monthText, dayText]
    rfl
  · simp [date?, twoDigits?, year, month, day, noWeek, valid]

/-! ## Clocks -/

theorem afterPart_colon (reading : ClockReading) (first : Char) (rest : List Char)
    (next : List Char → Option ClockReading) :
    afterPart true reading (':' :: first :: rest) next = next (first :: rest) :=
  rfl

theorem fraction?_paddedText {fraction : Nat} (fits : fraction < second) (reading : ClockReading) :
    fraction? reading (Decimal.paddedText 6 fraction).toList =
      some { reading with fraction, isWhole := true } := by
  have length := @length_paddedText 6 fraction (by decide) fits
  have taken : (Decimal.paddedText 6 fraction).toList.take 6 =
      (Decimal.paddedText 6 fraction).toList := List.take_of_length_le (by omega)
  have dropped : (Decimal.paddedText 6 fraction).toList.drop 6 = [] :=
    List.drop_of_length_le (by omega)
  have read := @digits?_paddedText 6 fraction (by decide) fits
  simp [fraction?, taken, dropped, read, length]

theorem afterPart_fractionText {fraction : Nat} (fits : fraction < second) (reading : ClockReading)
    (fresh : reading.fraction = 0) (isWhole : reading.isWhole = true)
    (next : List Char → Option ClockReading) :
    afterPart true reading (fractionText fraction).toList next = some { reading with fraction } := by
  rw [fractionText]
  split
  · rename_i isZero
    have zero : fraction = 0 := by simpa using isZero
    subst zero
    rw [← fresh]
    rfl
  · have read := fraction?_paddedText fits reading
    rw [← isWhole] at read
    rcases text : (Decimal.paddedText 6 fraction).toList with _ | ⟨first, rest⟩
    · have length := @length_paddedText 6 fraction (by decide) fits
      rw [text] at length
      cases length
    · rw [text] at read
      have point : ("." ++ Decimal.paddedText 6 fraction).toList = '.' :: first :: rest := by
        rw [String.toList_append, text]
        rfl
      rw [point, afterPart]
      · exact read
      · simp

theorem toList_hourText (ticks : Nat) :
    (hourText ticks).toList =
      (Decimal.paddedText 2 (ticks / hour)).toList ++ ':' ::
        ((Decimal.paddedText 2 (ticks / minute % 60)).toList ++ ':' ::
          (Decimal.paddedText 2 (ticks / second % 60)).toList) := by
  have colon : ":".toList = [':'] := rfl
  simp [hourText, clockParts, Text.join_cons_cons, colon]

theorem clock?_written (within : ticks < day) :
    ∃ reading, clock? ((hourText ticks).toList ++ (fractionText (ticks % second)).toList) =
        some reading ∧
      reading.isWhole = true ∧ reading.hours < 24 ∧ reading.minutes < 60 ∧ reading.seconds < 60 ∧
      reading.ticks = ticks := by
  have hoursFit : ticks / hour < 24 := by
    simp only [day, hour, minute, second] at within ⊢
    omega
  have minutesFit : ticks / minute % 60 < 60 := Nat.mod_lt _ (by decide)
  have secondsFit : ticks / second % 60 < 60 := Nat.mod_lt _ (by decide)
  have fractionFits : ticks % second < second := Nat.mod_lt _ (by decide)
  have total : ticks / hour * hour + ticks / minute % 60 * minute + ticks / second % 60 * second +
      ticks % second = ticks := by
    simp only [hour, minute, second]
    omega
  rcases exists_twoDigits (Nat.lt_trans hoursFit (by decide)) with ⟨_, _, hourChars, _, _, hours⟩
  rcases exists_twoDigits (Nat.lt_trans minutesFit (by decide)) with ⟨_, _, minuteChars, _, _, minutes⟩
  rcases exists_twoDigits (Nat.lt_trans secondsFit (by decide)) with ⟨_, _, secondChars, _, _, seconds⟩
  refine ⟨⟨ticks / hour, ticks / minute % 60, ticks / second % 60, ticks % second, true⟩, ?_, rfl,
    hoursFit, minutesFit, secondsFit, total⟩
  rw [toList_hourText, hourChars, minuteChars, secondChars]
  have ending := afterPart_fractionText fractionFits
    { hours := ticks / hour, minutes := ticks / minute % 60, seconds := ticks / second % 60 } rfl rfl
    (fraction? { hours := ticks / hour, minutes := ticks / minute % 60, seconds := ticks / second % 60 })
  simp [clock?, twoDigits?, hours, minutes, seconds, afterPart_colon, ending]

theorem mem_written {char : Char}
    (member : char ∈ (hourText ticks).toList ++ (fractionText (ticks % second)).toList) :
    char.isDigit = true ∨ char = ':' ∨ char = '.' := by
  have padded {width value : Nat} (inside : char ∈ (Decimal.paddedText width value).toList) :
      char.isDigit = true ∨ char = ':' ∨ char = '.' :=
    .inl (isDigit_of_mem_paddedText inside)
  rw [toList_hourText] at member
  simp only [List.append_assoc, List.cons_append, List.mem_append, List.mem_cons] at member
  rcases member with inside | colon | inside | colon | inside | inside
  · exact padded inside
  · exact .inr (.inl colon)
  · exact padded inside
  · exact .inr (.inl colon)
  · exact padded inside
  · rw [fractionText] at inside
    split at inside
    · cases inside
    · rw [String.toList_append, List.mem_append] at inside
      rcases inside with point | inside
      · exact .inr (.inr (List.mem_singleton.mp point))
      · exact padded inside

theorem noSign_written :
    ∀ char ∈ (hourText ticks).toList ++ (fractionText (ticks % second)).toList,
      (!(char == '+' || char == '-' || char == 'Z')) = true := by
  intro char member
  rcases mem_written member with isDigit | rfl | rfl
  · have different {other : Char} (noDigit : other.isDigit = false) : char ≠ other :=
      (ne_of_isDigit isDigit noDigit).symm
    simp [different]
  · rfl
  · rfl

theorem timeOfDay?_written (within : ticks < day) :
    timeOfDay? ((hourText ticks).toList ++ (fractionText (ticks % second)).toList) =
      some (ticks, none) := by
  rcases clock?_written within with ⟨reading, read, isWhole, hours, minutes, seconds, total⟩
  rw [timeOfDay?]
  simp only [List.takeWhile_eq_self_iff.mpr noSign_written,
    List.dropWhile_eq_nil_iff.mpr noSign_written, read]
  simp [isWhole, total, hours, minutes, seconds]

/-! ## Distances from the common time -/

/-- What is read of a distance: one below a second is none. -/
def rereadAhead (ahead : Int) : Int := if ahead.natAbs < second then 0 else ahead

theorem clock?_minutes (within : ticks < day) (whole : ticks % minute = 0) :
    ∃ reading, clock? ((Decimal.paddedText 2 (ticks / hour)).toList ++ ':' ::
        (Decimal.paddedText 2 (ticks / minute % 60)).toList) = some reading ∧
      reading.isWhole = true ∧ reading.ticks = ticks := by
  have hoursFit : ticks / hour < 100 := by
    simp only [day, hour, minute, second] at within ⊢
    omega
  have minutesFit : ticks / minute % 60 < 100 :=
    Nat.lt_trans (Nat.mod_lt _ (by decide)) (by decide : 60 < 100)
  have total : ticks / hour * hour + ticks / minute % 60 * minute + 0 * second + 0 = ticks := by
    simp only [hour, minute, second] at whole ⊢
    omega
  rcases exists_twoDigits hoursFit with ⟨_, _, hourChars, _, _, hours⟩
  rcases exists_twoDigits minutesFit with ⟨_, _, minuteChars, _, _, minutes⟩
  refine ⟨⟨ticks / hour, ticks / minute % 60, 0, 0, true⟩, ?_, rfl, total⟩
  rw [hourChars, minuteChars]
  simp [clock?, twoDigits?, hours, minutes, afterPart]

theorem clock?_aheadText (near : ahead.natAbs < day) :
    ∃ body reading, (aheadText ahead).toList = (if ahead < 0 then '-' else '+') :: body ∧
      clock? body = some reading ∧ reading.isWhole = true ∧ reading.ticks = ahead.natAbs := by
  have sign : (if ahead < 0 then "-" else "+").toList = [if ahead < 0 then '-' else '+'] := by
    split <;> rfl
  have colon : ":".toList = [':'] := rfl
  by_cases whole : ahead.natAbs % minute = 0
  · rcases clock?_minutes near whole with ⟨reading, read, isWhole, total⟩
    have noSeconds : ahead.natAbs / second % 60 = 0 := by
      simp only [minute, second] at whole ⊢
      omega
    have noFraction : ahead.natAbs % second = 0 := by
      simp only [minute, second] at whole ⊢
      omega
    refine ⟨_, reading, ?_, read, isWhole, total⟩
    simp [aheadText, clockParts, noSeconds, noFraction, fractionText, Text.join_cons_cons, sign, colon]
  · rcases clock?_written near with ⟨reading, read, isWhole, _, _, _, total⟩
    have partly : (ahead.natAbs / second % 60 == 0 && ahead.natAbs % second == 0) = false := by
      rw [← Bool.not_eq_true, Bool.and_eq_true, beq_iff_eq, beq_iff_eq]
      rintro ⟨noSeconds, noFraction⟩
      apply whole
      simp only [minute, second] at noSeconds noFraction ⊢
      omega
    refine ⟨_, reading, ?_, read, isWhole, total⟩
    simp [aheadText, clockParts, hourText, partly, sign]

theorem ahead?_aheadText (near : ahead.natAbs < day) :
    ∃ sign body, (aheadText ahead).toList = sign :: body ∧ (sign = '+' ∨ sign = '-') ∧
      ahead? (sign == '-') body = some (rereadAhead ahead) := by
  rcases clock?_aheadText near with ⟨body, reading, text, read, isWhole, total⟩
  have inRange : decide ((if ahead.natAbs < second then 0 else (ahead.natAbs : Int)) < day) = true := by
    rw [decide_eq_true_eq]
    split
    · decide
    · exact Int.ofNat_lt.mpr near
  refine ⟨_, body, text, ?_, ?_⟩
  · split
    · exact .inr rfl
    · exact .inl rfl
  · simp only [ahead?, read, isWhole, total, Bool.true_and, Option.bind_eq_bind, Option.bind_some,
      inRange, if_true, rereadAhead, Option.pure_def, Option.some.injEq]
    by_cases brief : ahead.natAbs < second
    · simp [brief]
    · by_cases negative : ahead < 0
      · simp only [brief, negative, if_true, if_false, beq_self_eq_true]
        omega
      · simp only [brief, negative, if_false]
        change (ahead.natAbs : Int) = ahead
        omega

theorem timeOfDay?_ahead (within : ticks < day) (near : ahead.natAbs < day) :
    timeOfDay? ((hourText ticks).toList ++ (fractionText (ticks % second)).toList ++
      (aheadText ahead).toList) = some (ticks, some (rereadAhead ahead)) := by
  rcases clock?_written within with ⟨reading, read, isWhole, hours, minutes, seconds, total⟩
  rcases ahead?_aheadText near with ⟨sign, body, text, isSign, readAhead⟩
  -- The time of day ends at the first sign.
  have stops : (!(sign == '+' || sign == '-' || sign == 'Z')) = false := by
    rcases isSign with rfl | rfl <;> rfl
  have noZone : sign ≠ 'Z' := by
    rcases isSign with rfl | rfl <;> decide
  rw [text, timeOfDay?]
  simp only [List.takeWhile_append_of_pos noSign_written, List.dropWhile_append_of_pos noSign_written,
    List.takeWhile_cons, List.dropWhile_cons, stops, Bool.false_eq_true, if_false, List.append_nil,
    read]
  simp [hours, minutes, seconds, readAhead, total]

/-! ## Moments -/

/-- A moment that a clock can show; the clock has no known distance from the common time. -/
structure Moment.Shown (moment : Moment) : Prop where
  naive : moment.ahead = none
  started : 0 ≤ moment.ticks
  inTime : moment.ticks < Moment.endOfTime

/-- A moment that a clock can show, whether its distance from the common time is known or not; that
is less than a day. -/
structure Moment.Valid (moment : Moment) : Prop where
  started : 0 ≤ moment.ticks
  inTime : moment.ticks < Moment.endOfTime
  near : ∀ ahead, moment.ahead = some ahead → ahead.natAbs < day

theorem Moment.Shown.valid (shown : moment.Shown) : moment.Valid :=
  ⟨shown.started, shown.inTime, fun _ known => nomatch shown.naive.symm.trans known⟩

/-- The moment that is read from the written form. -/
def Moment.reread (moment : Moment) : Moment :=
  { moment with ahead := moment.ahead.map rereadAhead }

theorem Moment.ofDay_lt (moment : Moment) : moment.ofDay < day := by
  have positive : (0 : Int) < day := by decide
  have low := Int.emod_nonneg moment.ticks (Int.ne_of_gt positive)
  have high := Int.emod_lt_of_pos moment.ticks positive
  rw [Moment.ofDay]
  omega

theorem Moment.Valid.date_spec (valid : moment.Valid) :
    moment.date.isValid = true ∧ moment.date.number = (moment.ticks / day).toNat + 1 := by
  have started := valid.started
  have inTime := valid.inTime
  have days : (moment.ticks / day).toNat + 1 ≤ lastDay := by
    have total : Moment.endOfTime = 3652059 * 86400000000 := by decide
    have length : (day : Int) = 86400000000 := by decide
    have count : lastDay = 3652059 := by decide
    rw [length, count]
    omega
  have spec := number_ofNumber (Nat.succ_pos _) days
  exact ⟨spec.2, spec.1⟩

theorem Moment.Valid.ticks_eq (valid : moment.Valid) :
    ((moment.date.number - 1 : Nat) : Int) * day + moment.ofDay = moment.ticks := by
  have positive : (0 : Int) < day := by decide
  have days := Int.ediv_nonneg valid.started (Int.le_of_lt positive)
  have rest := Int.emod_nonneg moment.ticks (Int.ne_of_gt positive)
  rw [valid.date_spec.2, Nat.add_sub_cancel, Moment.ofDay, Int.toNat_of_nonneg days,
    Int.toNat_of_nonneg rest]
  exact Int.ediv_mul_add_emod moment.ticks day

theorem toList_joined (year month day hours fraction ahead : String) :
    (year ++ "-" ++ (month ++ "-" ++ day) ++ "T" ++ hours ++ fraction ++ ahead).toList =
      year.toList ++ '-' :: (month.toList ++ '-' :: day.toList) ++
        'T' :: (hours.toList ++ fraction.toList ++ ahead.toList) := by
  have dash : "-".toList = ['-'] := rfl
  have mark : "T".toList = ['T'] := rfl
  simp [dash, mark]

theorem Moment.toList_text (moment : Moment) :
    moment.text.toList =
      (Decimal.paddedText 4 moment.date.year).toList ++ '-' ::
        ((Decimal.paddedText 2 moment.date.month).toList ++ '-' ::
          (Decimal.paddedText 2 moment.date.day).toList) ++
        'T' :: ((hourText moment.ofDay).toList ++ (fractionText (moment.ofDay % second)).toList ++
          ((moment.ahead.map aheadText).getD "").toList) := by
  have date : moment.dateText = Decimal.paddedText 4 moment.date.year ++ "-" ++
      (Decimal.paddedText 2 moment.date.month ++ "-" ++ Decimal.paddedText 2 moment.date.day) := by
    rw [Moment.dateText, Text.join_cons_cons, Text.join_cons_cons, Text.join_singleton]
  rw [Moment.text, Moment.clock, date, toList_joined]

theorem Moment.Valid.timeOfDay?_text (valid : moment.Valid) :
    timeOfDay? ((hourText moment.ofDay).toList ++ (fractionText (moment.ofDay % second)).toList ++
      ((moment.ahead.map aheadText).getD "").toList) =
        some (moment.ofDay, moment.ahead.map rereadAhead) := by
  cases known : moment.ahead with
  | none =>
    rw [Option.map_none, Option.getD_none, String.toList_empty, List.append_nil]
    exact timeOfDay?_written moment.ofDay_lt
  | some ahead => exact timeOfDay?_ahead moment.ofDay_lt (valid.near ahead known)

theorem ofText?_of_parts {text : String} {stop : Nat} {ahead : Option Int}
    (long : ¬ text.toList.length < 7) (dateEnds : dateEnd? text.toList = some stop)
    (dateRead : date? (text.toList.take stop) = some date)
    (more : (text.toList.drop stop).isEmpty = false)
    (timeRead : timeOfDay? (text.toList.drop (stop + 1)) = some (ticks, ahead)) :
    Moment.ofText? text = some ⟨(date.number - 1 : Nat) * day + ticks, ahead⟩ := by
  simp only [Moment.ofText?, long, if_false, dateEnds, dateRead, more, timeRead,
    Option.bind_eq_bind, Option.bind_some, Option.pure_def, Bool.false_eq_true]

theorem ofText?_of_valid (valid : moment.Valid) :
    Moment.ofText? moment.text = some moment.reread := by
  rcases valid.date_spec with ⟨validDate, number⟩
  rcases date?_dashed validDate with ⟨_, _, _, _, _, _, _, _, dateChars, noWeek, date⟩
  have time := valid.timeOfDay?_text
  have text := moment.toList_text
  rw [dateChars] at text
  generalize (hourText moment.ofDay).toList ++ (fractionText (moment.ofDay % second)).toList ++
    ((moment.ahead.map aheadText).getD "").toList = written at time text
  have stop : dateEnd? moment.text.toList = some 10 := by
    rw [text]
    simp [dateEnd?, noWeek]
  have long : ¬ moment.text.toList.length < 7 := by
    rw [text]
    simp
  have dateRead : date? (moment.text.toList.take 10) = some moment.date := by
    rw [text]
    exact date
  have more : (moment.text.toList.drop 10).isEmpty = false := by
    rw [text]
    rfl
  have timeRead : timeOfDay? (moment.text.toList.drop (10 + 1)) =
      some (moment.ofDay, moment.ahead.map rereadAhead) := by
    rw [text]
    exact time
  rw [ofText?_of_parts long stop dateRead more timeRead, valid.ticks_eq, Moment.reread]

theorem ofText?_text (shown : moment.Shown) :
    Moment.ofText? moment.text = some moment := by
  rw [ofText?_of_valid shown.valid, Moment.reread, shown.naive, Option.map_none, ← shown.naive]

theorem ofJson_eq_ok {text : String} (read : Moment.ofText? text = some moment) :
    Moment.ofJson (.text text) = .ok moment := by
  unfold Moment.ofJson Json.string
  simp only [bind, Except.bind]
  generalize Moment.ofText? text = result at read ⊢
  rw [read]
  rfl

end CodeAtlas.Time
