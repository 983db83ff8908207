/-
  Casework.Time.Reader

  Reading moments from text. A day is written with or without hyphens, by month and day or by week;
  any one character may follow, then a time of day with or without colons, a fraction after a point
  or a comma, and an offset after a sign. The reader is forgiving in known ways: a fraction is cut
  to six digits, what stands between a complete time and an offset is passed over, and a null
  character ends a time.

  Lengths are those of the encoded text, in which a character beyond the first 128 takes several
  places.
-/
import Casework.Text.Blank
import Casework.Time.Moment

namespace Casework.Moment

/-- The character that stands for the end of the text. -/
def endMark : Char := Char.ofNat 0

/-- The places of a text: plain characters, and as many marks for any other as its encoding has
bytes. -/
def places (cs : List Char) : List Char :=
  cs.flatMap fun c => if c.toNat < 128 then [c] else List.replicate c.utf8Size (Char.ofNat 0xfffd)

/-- The number that the first `n` characters spell in digits, after `value`, and the rest. -/
def digits? : Nat → Nat → List Char → Option (Nat × List Char)
  | 0, value, cs => some (value, cs)
  | n + 1, value, c :: rest =>
    if c.isDigit then digits? n (10 * value + (c.toNat - '0'.toNat)) rest else none
  | _ + 1, _, [] => none

/-! ## Days -/

/-- Where the day ends in a text that begins with one. -/
def dayLength (cs : List Char) : Nat :=
  let place (n : Nat) : Char := cs.getD n endMark
  if cs.length == 7 then 7
  else if place 4 == '-' then
    if place 5 == 'W' then
      if place 8 == '-' then (if (place 10).isDigit then 8 else 10) else 8
    else 10
  else if place 4 == 'W' then
    let run := 7 + ((cs.drop 7).takeWhile Char.isDigit).length
    if run < 9 then run else if run % 2 == 0 then 7 else 8
  else 8

/-- The day of a year that weeks name, its text ending after `length` places; `hyphens` tells the
spelling, and `before` places come before the week. -/
def weekDay? (year : Nat) (hyphens : Bool) (before length : Nat) (cs : List Char) :
    Option Date := do
  let (week, rest) ← digits? 2 0 cs
  if before + 2 < length then
    let rest ← if hyphens then
        match rest with
        | '-' :: rest => some rest
        | _ => none
      else some rest
    let (day, _) ← digits? 1 0 rest
    Date.ofWeek? year week day
  else Date.ofWeek? year week 1

/-- The day that the characters begin with, its text ending after `length` places. -/
def date? (length : Nat) (cs : List Char) : Option Date := do
  let (year, rest) ← digits? 4 0 cs
  let hyphens := rest.head? == some '-'
  let rest := if hyphens then rest.drop 1 else rest
  match rest with
  | 'W' :: rest => weekDay? year hyphens (if hyphens then 6 else 5) length rest
  | rest =>
    let (month, rest) ← digits? 2 0 rest
    let rest ← if hyphens then
        match rest with
        | '-' :: rest => some rest
        | _ => none
      else some rest
    let (day, _) ← digits? 2 0 rest
    let date : Date := ⟨year, month, day⟩
    if date.valid then some date else none

/-! ## Times of day -/

/-- A time of day, or the size of an offset. -/
structure Clock where
  hour : Nat
  minute : Nat
  second : Nat
  micro : Nat

/-- The clock with its part number `i` set. -/
def Clock.set (c : Clock) (i value : Nat) : Clock :=
  match i with
  | 0 => { c with hour := value }
  | 1 => { c with minute := value }
  | _ => { c with second := value }

/-- The millionths of a second that the characters before `stop` spell, and whether anything is left
over. -/
def fraction? (clock : Clock) (stop : Char) (cs : List Char) : Option (Clock × Bool) := do
  let count := min cs.length 6
  let (value, rest) ← digits? count 0 cs
  let rest := rest.dropWhile Char.isDigit
  some ({ clock with micro := value * Nat.pow 10 (6 - count) }, rest.headD stop != endMark)

/-- The time of day that the characters before `stop` spell, from part `3 - left` on, and whether
anything is left over; `colons` tells the spelling. -/
def clockFrom (stop : Char) : Nat → Bool → Clock → List Char → Option (Clock × Bool)
  | 0, _, clock, cs => fraction? clock stop cs
  | left + 1, colons, clock, cs => do
    let (value, rest) ← digits? 2 0 cs
    let clock := clock.set (2 - left) value
    match rest with
    | [] => some (clock, stop != endMark)
    | [c] => some (clock, c != endMark)
    | c :: more =>
      let colons := if left == 2 then c == ':' else colons
      if colons && c == ':' then clockFrom stop left colons clock more
      else if c == '.' || c == ',' then fraction? clock stop more
      else if colons then none
      else clockFrom stop left colons clock rest

/-- The time of day that the characters before `stop` spell, and whether anything is left over. -/
def clock? (stop : Char) (cs : List Char) : Option (Clock × Bool) :=
  clockFrom stop 3 true ⟨0, 0, 0, 0⟩ cs

/-- Whether a character begins an offset. -/
def isOffsetStart (c : Char) : Bool := c == '+' || c == '-' || c == 'Z'

/-- The offset that the characters spell. One below a second counts as none. -/
def offset? : List Char → Option Int
  | 'Z' :: rest => if rest.headD endMark == endMark then some 0 else none
  | sign :: rest => do
    let (clock, left) ← clock? endMark rest
    if left then none
    else
      let seconds := clock.hour * 3600 + clock.minute * 60 + clock.second
      let size : Int :=
        if seconds == 0 then 0 else (seconds * microsPerSecond + clock.micro : Nat)
      if size < 86400 * (microsPerSecond : Int) then some (if sign == '-' then -size else size)
      else none
  | [] => none

/-- The time of day and the offset that the characters spell. -/
def time? (cs : List Char) : Option (Clock × Option Int) := do
  let before := cs.takeWhile (!isOffsetStart ·)
  let after := cs.drop before.length
  let (clock, left) ← clock? (after.headD endMark) before
  if after.isEmpty then (if left then none else some (clock, none))
  else
    let offset ← offset? after
    some (clock, some offset)

/-- The moment of a day and a clock. -/
def ofClock? (date : Date) (clock : Clock) (offset : Option Int) : Option Moment :=
  if clock.hour < 24 && clock.minute < 60 && clock.second < 60 then
    some ⟨date, clock.hour, clock.minute, clock.second, clock.micro, offset⟩
  else none

/-- The moment that a text spells. -/
def read? (s : String) : Option Moment := do
  let cs := s.toList
  if cs.length < 7 then none
  else
    let length := dayLength (places cs)
    let date ← date? length (places cs)
    match cs.drop length with
    | [] => some ⟨date, 0, 0, 0, 0, none⟩
    | _ :: rest =>
      let (clock, offset) ← time? (places rest)
      ofClock? date clock offset

/-- The text with every `Z` replaced by the offset of universal time. -/
def universal (s : String) : String :=
  String.ofList (s.toList.flatMap fun c => if c == 'Z' then "+00:00".toList else [c])

end Casework.Moment
