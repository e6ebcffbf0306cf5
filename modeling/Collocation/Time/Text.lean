import Collocation.Text.Scan
import Collocation.Time.Instant

/-!
# Texts of instants

The text of an instant is that of RFC 3339. Three readers are given: of RFC 3339 itself, of the bare
form without a zone or a fraction, and of a lenient form with short numbers and blanks between them.
-/

set_option autoImplicit false

namespace Collocation

open Text

/-! ## Writing -/

/-- A fraction of a second in the fewest of three, six and nine digits that are exact, and nothing
for a whole second. -/
def fractionText (nanosecond : Nat) : List Char :=
  if nanosecond = 0 then []
  else if nanosecond % 1000000 = 0 then '.' :: padded 3 (nanosecond / 1000000)
  else if nanosecond % 1000 = 0 then '.' :: padded 6 (nanosecond / 1000)
  else '.' :: padded 9 nanosecond

/-- Years of four digits have no sign; others have one, and four digits at least. -/
def yearText (year : Int) : List Char :=
  if 0 ≤ year ∧ year ≤ 9999 then padded 4 year.toNat
  else (if year < 0 then '-' else '+') :: padded 4 year.natAbs

def LocalTime.chars (t : LocalTime) : List Char :=
  yearText t.date.year ++ '-' :: padded 2 t.date.month ++ '-' :: padded 2 t.date.day ++
    'T' :: padded 2 t.hour ++ ':' :: padded 2 t.minute ++ ':' :: padded 2 t.second ++
    fractionText t.nanosecond

/-- The zone of universal time is `Z`; others are written in hours and minutes. -/
def offsetText (offset : Int) : List Char :=
  if offset = 0 then ['Z']
  else (if offset < 0 then '-' else '+') ::
    (padded 2 (offset.natAbs / 60) ++ ':' :: padded 2 (offset.natAbs % 60))

/-- The text of an instant on a clock that is `offset` minutes ahead of universal time. -/
def Instant.charsAt (t : Instant) (offset : Int) : List Char :=
  (LocalTime.ofInstant t offset).chars ++ offsetText offset

/-- The text of an instant in universal time. -/
def Instant.text (t : Instant) : String :=
  String.ofList (t.charsAt 0)

/-! ## Reading RFC 3339 -/

/-- The nanoseconds of a fraction: its digits after the ninth do not count. -/
def fractionValue (digits : List Char) : Nat :=
  number ((digits ++ List.replicate 9 '0').take 9)

/-- A fraction of a second, which may be missing; after a point there is a digit at least. -/
def readFraction : List Char → Option (Nat × List Char)
  | '.' :: rest =>
    match spanDigits rest with
    | ([], _) => none
    | (digits, rest) => some (fractionValue digits, rest)
  | text => some (0, text)

/-- The date and the time of day are parted by a letter or by a space. -/
def skipDateEnd : List Char → Option (List Char)
  | c :: rest => if c = 'T' ∨ c = 't' ∨ c = ' ' then some rest else none
  | [] => none

/-- The sign of an offset. The true minus sign is one too. -/
def readSign : List Char → Option (Int × List Char)
  | c :: rest =>
    if c = '+' then some (1, rest)
    else if c = '-' ∨ c = '−' then some (-1, rest)
    else none
  | [] => none

/-- The minutes of an offset in hours and minutes, less than a day. -/
def offsetMinutes (sign : Int) (hours minutes : Nat) : Option Int :=
  if hours < 24 ∧ minutes < 60 then some (sign * (60 * hours + minutes)) else none

/-- A zone, which ends the text. -/
def readZone (text : List Char) : Option Int :=
  if text = ['Z'] ∨ text = ['z'] then some 0
  else do
    let (sign, rest) ← readSign text
    let (hours, rest) ← exactly 2 rest
    let rest ← skip ':' rest
    let (minutes, rest) ← exactly 2 rest
    if rest.isEmpty then offsetMinutes sign hours minutes else none

def readRfc3339 (text : List Char) : Option (LocalTime × Int) := do
  let (year, rest) ← exactly 4 text
  let rest ← skip '-' rest
  let (month, rest) ← exactly 2 rest
  let rest ← skip '-' rest
  let (day, rest) ← exactly 2 rest
  let rest ← skipDateEnd rest
  let (hour, rest) ← exactly 2 rest
  let rest ← skip ':' rest
  let (minute, rest) ← exactly 2 rest
  let rest ← skip ':' rest
  let (second, rest) ← exactly 2 rest
  let (nanosecond, rest) ← readFraction rest
  let offset ← readZone rest
  some (⟨⟨year, month, day⟩, hour, minute, second, nanosecond⟩, offset)

/-- The instant of an RFC 3339 text. -/
def Instant.ofRfc3339? (text : List Char) : Option Instant := do
  let (time, offset) ← readRfc3339 text
  time.toInstant? offset

/-! ## Reading the bare form -/

/-- A number of one or two digits, blanks in front of it. -/
def readShort (text : List Char) : Option (Nat × List Char) :=
  upTo 2 (trimLeft text)

/-- A year, blanks in front of it: four digits at most without a sign, and any count with one. -/
def readYear (text : List Char) : Option (Int × List Char) :=
  match trimLeft text with
  | '-' :: rest => (whole rest).map fun (year, rest) => (-(year : Int), rest)
  | '+' :: rest => (whole rest).map fun (year, rest) => ((year : Int), rest)
  | rest => (upTo 4 rest).map fun (year, rest) => ((year : Int), rest)

/-- A date and a time of day without a fraction, in short numbers. -/
def readBare (text : List Char) : Option (LocalTime × List Char) := do
  let (year, rest) ← readYear text
  let rest ← skip '-' rest
  let (month, rest) ← readShort rest
  let rest ← skip '-' rest
  let (day, rest) ← readShort rest
  let rest ← skip 'T' rest
  let (hour, rest) ← readShort rest
  let rest ← skip ':' rest
  let (minute, rest) ← readShort rest
  let rest ← skip ':' rest
  let (second, rest) ← readShort rest
  some (⟨⟨year, month, day⟩, hour, minute, second, 0⟩, rest)

/-- The instant of a bare text: universal time, whether `Z` follows or not. -/
def Instant.ofBare? (text : List Char) : Option Instant := do
  let (time, rest) ← readBare text
  if rest = [] ∨ rest = ['Z'] then time.toInstant? 0 else none

/-- The instant of a text in RFC 3339 or, failing that, in the bare form. -/
def Instant.ofIso8601? (text : List Char) : Option Instant :=
  (ofRfc3339? text).orElse fun _ => ofBare? text

/-! ## Reading the lenient form -/

/-- A zone of the lenient form: `UTC` in any case, or an offset with colons and blanks, or nothing,
between its hours and its minutes. Blanks may follow. -/
def readLenientZone (text : List Char) : Option Int :=
  match text with
  | 'Z' :: rest => ended rest 0
  | 'z' :: rest => ended rest 0
  | u :: t :: c :: rest =>
    if [u, t, c].map Char.toUpper = ['U', 'T', 'C'] then ended rest 0 else hours text
  | _ => hours text
where
  ended (rest : List Char) (offset : Int) : Option Int :=
    if (trimLeft rest).isEmpty then some offset else none
  hours (text : List Char) : Option Int := do
    let (sign, rest) ← readSign text
    let (hours, rest) ← exactly 2 rest
    let (minutes, rest) ← exactly 2 (rest.dropWhile fun c => c = ':' || isBlank c)
    let offset ← offsetMinutes sign hours minutes
    ended rest offset

def readLenient (text : List Char) : Option (LocalTime × Int) := do
  let (year, rest) ← readYear text
  let rest ← skip '-' (trimLeft rest)
  let (month, rest) ← readShort rest
  let rest ← skip '-' (trimLeft rest)
  let (day, rest) ← readShort rest
  let rest ← skipDateEnd rest
  let (hour, rest) ← readShort rest
  let rest ← skip ':' (trimLeft rest)
  let (minute, rest) ← readShort rest
  let rest ← skip ':' (trimLeft rest)
  let (second, rest) ← readShort rest
  let (nanosecond, rest) ← readFraction rest
  let offset ← readLenientZone (trimLeft rest)
  some (⟨⟨year, month, day⟩, hour, minute, second, nanosecond⟩, offset)

/-- The instant of a stored text: RFC 3339 or, failing that, its lenient form. -/
def Instant.ofStored? (text : List Char) : Option Instant :=
  (ofRfc3339? text).orElse fun _ => do
    let (time, offset) ← readLenient text
    time.toInstant? offset

end Collocation
