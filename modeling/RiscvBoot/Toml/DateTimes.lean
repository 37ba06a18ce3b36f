import RiscvBoot.Toml.Numbers

/-!
# TOML dates and times

A date is checked against the calendar; a time of day stands alone or follows a date, and may then
have an offset from universal time. Four digits and a dash make a date, an hour and a colon make a
time, and from there on what is wrong is a fault.

A date-time can also be written as a table that has its text under a reserved name. Where tables
may hold anything, `withDateTimes` reads such tables, at any depth below a document.
-/

set_option autoImplicit false

namespace RiscvBoot.Toml

/-- Exactly `width` digits with a value between two bounds, if they stand here. -/
def readField? (width low high : Nat) (cs : List Char) : Found Nat :=
  let ds := cs.take width
  let n := Text.valueInBase 10 ds
  if ds.length = width ∧ ds.all Char.isDigit ∧ low ≤ n ∧ n ≤ high then some (n, cs.drop width)
  else none

/-- Two digits with a value between two bounds, which have to stand here. -/
def readField (low high : Nat) (cs : List Char) : Except Fault (Nat × List Char) :=
  match readField? 2 low high cs with
  | some r => .ok r
  | none => .error ⟨cs, "invalid date-time"⟩

def isLeapYear (year : Nat) : Bool := year % 4 = 0 && (year % 100 ≠ 0 || year % 400 = 0)

def daysInMonth (year month : Nat) : Nat :=
  if month = 2 then (if isLeapYear year then 29 else 28)
  else if month = 4 ∨ month = 6 ∨ month = 9 ∨ month = 11 then 30
  else 31

/-- The text after a date, if one begins here. -/
def skipDate? (cs : List Char) : Except Fault (Option (List Char)) :=
  match readField? 4 0 9999 cs with
  | some (year, '-' :: rest) => do
    let (month, rest) ← readField 1 12 rest
    let rest ← expect '-' rest "invalid date-time\nexpected \x60-\x60"
    let (_, rest) ← readField 1 (daysInMonth year month) rest
    return some rest
  | _ => .ok none

/-- The text without the fraction of a second at its start. -/
def skipFraction : List Char → List Char
  | '.' :: d :: rest => if d.isDigit then rest.dropWhile Char.isDigit else '.' :: d :: rest
  | cs => cs

/-- The text after a time of day, if one begins here; a minute may have a leap second. -/
def skipTime? (cs : List Char) : Except Fault (Option (List Char)) :=
  match readField? 2 0 23 cs with
  | some (_, ':' :: rest) => do
    let (_, rest) ← readField 0 59 rest
    let rest ← expect ':' rest "invalid date-time\nexpected \x60:\x60"
    let (_, rest) ← readField 0 60 rest
    return some (skipFraction rest)
  | _ => .ok none

/-- A date is joined to the time of day that follows it by one of these. -/
def isDateTimeJoint (c : Char) : Bool := c = 'T' || c = 't' || c = ' '

/-- The text after an offset from universal time, if one begins here. -/
def skipOffset (cs : List Char) : Except Fault (List Char) :=
  match cs with
  | 'Z' :: rest | 'z' :: rest => .ok rest
  | c :: rest =>
    if c = '+' ∨ c = '-' then do
      let (_, rest) ← readField 0 23 rest
      let rest ← expect ':' rest "invalid date-time\nexpected \x60:\x60"
      let (_, rest) ← readField 0 59 rest
      return rest
    else .ok cs
  | [] => .ok []

/-- The text after a time of day that follows a date, if one does. -/
def skipTimeOfDate (cs : List Char) : Except Fault (List Char) :=
  match cs with
  | c :: rest =>
    if isDateTimeJoint c then do
      match ← skipTime? rest with
      | some after => skipOffset after
      | none => return cs
    else .ok cs
  | [] => .ok []

def readDateTime (cs : List Char) : Except Fault (Found Tree) := do
  match ← skipDate? cs with
  | some rest =>
    let after ← skipTimeOfDate rest
    return some (.dateTime (consumed cs after), after)
  | none =>
    let found ← skipTime? cs
    return found.map fun after => (.dateTime (consumed cs after), after)

def isDateTime (text : String) : Bool :=
  match readDateTime text.toList with
  | .ok (some (_, [])) => true
  | _ => false

/-- The reserved name under which a table holds a date-time. -/
def dateTimeName : String := "$__toml_private_datetime"

/-- The date-time that a table holds under the reserved name. -/
def dateTime? : Tree → Option Tree
  | .text s => if isDateTime s then some (.dateTime s) else none
  | _ => none

mutual

/-- A value in which every table that has the reserved name first is read as a date-time. What
else such a table holds is passed over. -/
def withDateTimes : Tree → Option Tree
  | .record [] => some (.record [])
  | .record ((name, value) :: rest) =>
    if name = dateTimeName then dateTime? value
    else do
      let value ← withDateTimes value
      return .record ((name, value) :: (← entriesWithDateTimes rest))
  | .list items => do return .list (← itemsWithDateTimes items)
  | t => some t

def entriesWithDateTimes : List (String × Tree) → Option (List (String × Tree))
  | [] => some []
  | (name, value) :: rest => do
    let value ← withDateTimes value
    return (name, value) :: (← entriesWithDateTimes rest)

def itemsWithDateTimes : List Tree → Option (List Tree)
  | [] => some []
  | item :: rest => do
    let item ← withDateTimes item
    return item :: (← itemsWithDateTimes rest)

end

end RiscvBoot.Toml
