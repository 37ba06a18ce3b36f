import RiscvBoot.Toml.Strings
import RiscvBoot.Toml.DateTimes
import RiscvBoot.Toml.Tables

/-!
# Reading TOML

`Toml.read` reads a whole document into plain data, and `Toml.withOpenTables?` finishes the data
where no names are expected. The lines are read in order, and each of them is put into the draft
of the document before the next one is read, so the first line that is wrong in either way counts.
Lists and inline tables may be nested 79 deep, and a dotted key has at most 79 parts.

A fault is blamed on the place where reading could not go on. An item of a list is different: when
what follows it breaks off inside a comment, the item itself is blamed.
-/

set_option autoImplicit false

namespace RiscvBoot.Toml

/-- How deep values may be nested, and how many parts a key may have. -/
def nestingLimit : Nat := 79

/-- One part of a key, if one starts here: bare, or a one-line string. -/
def readKeyPart (cs : List Char) : Except Fault (Option (String × List Char)) :=
  match cs with
  | '"' :: rest => (readBasic rest).map fun r => some (String.ofList r.1, r.2)
  | '\'' :: rest => (readLiteral rest).map fun r => some (String.ofList r.1, r.2)
  | _ =>
    match cs.takeWhile isBareKeyChar with
    | [] => .ok none
    | part => .ok (some (String.ofList part, cs.dropWhile isBareKeyChar))

/-- The parts of a key with points between them, blanks allowed around each. A point that no part
follows is not part of the key; the fuel bounds the number of parts. -/
def readKeyParts : Nat → List Char → Except Fault (Option (List String × List Char))
  | 0, _ => .ok none
  | fuel + 1, cs => do
    match ← readKeyPart (skipBlanks cs) with
    | none => return none
    | some (part, rest) =>
      match skipBlanks rest with
      | '.' :: inner =>
        match ← readKeyParts fuel inner with
        | none => return some ([part], '.' :: inner)
        | some (parts, after) => return some (part :: parts, after)
      | after => return some ([part], after)

def readKey? (cs : List Char) : Except Fault (Option (Key × List Char)) := do
  match ← readKeyParts cs.length cs with
  | none => return none
  | some (parts, after) =>
    if nestingLimit < parts.length then return none
    else return some (⟨parts.dropLast, parts.getLastD ""⟩, after)

def readKey (cs : List Char) : Except Fault (Key × List Char) := do
  match ← readKey? cs with
  | none => throw ⟨cs, "invalid key"⟩
  | some r => return r

/-- The text after the sign between a key and its value, and the blanks around it. -/
def expectEquals (cs : List Char) : Except Fault (List Char) := do
  return skipBlanks (← expect '=' cs "expected \x60.\x60, \x60=\x60")

/-- The text after blanks, line breaks and comments inside a list. -/
def skipTrivia (inComment : Bool) : List Char → Except Fault (List Char)
  | [] => if inComment then .error ⟨[], "invalid comment"⟩ else .ok []
  | '\n' :: rest => skipTrivia false rest
  | '\r' :: '\n' :: rest => skipTrivia false rest
  | c :: rest =>
    if inComment then
      if isPlain c then skipTrivia true rest else .error ⟨c :: rest, "invalid comment"⟩
    else if isBlank c then skipTrivia false rest
    else if c = '#' then skipTrivia true rest
    else if c = '\r' then .error ⟨c :: rest, "invalid line break"⟩
    else .ok (c :: rest)

/-- The first reading that finds a value. One that breaks off is not made up for by the next. -/
def firstReading (readings : List (List Char → Except Fault (Found Tree))) (cs : List Char) :
    Except Fault (Found Tree) :=
  match readings with
  | [] => .ok none
  | read :: readings => do
    match ← read cs with
    | some r => return some r
    | none => firstReading readings cs

/-- A value that starts like a number: dates go before floats and floats before integers. -/
def readNumber (cs : List Char) : Except Fault (Found Tree) :=
  firstReading
    [readDateTime, readDecimalFloat, fun cs => .ok (readSpecialFloat cs), readInteger] cs

def readScalar (cs : List Char) : Except Fault (Tree × List Char) :=
  match cs with
  | 't' :: 'r' :: 'u' :: 'e' :: after => .ok (.boolean true, after)
  | 'f' :: 'a' :: 'l' :: 's' :: 'e' :: after => .ok (.boolean false, after)
  | c :: _ =>
    if c = '"' ∨ c = '\'' then (readString cs).map fun r => (.text (String.ofList r.1), r.2)
    else do
      let found ←
        if c = '+' ∨ c = '-' ∨ c.isDigit then readNumber cs else pure (readSpecialFloat cs)
      match found with
      | some r => return r
      | none => throw ⟨cs, "invalid value"⟩
  | [] => .error ⟨[], "invalid value"⟩

mutual

/-- A value; `room` is how much deeper lists and inline tables may still go. -/
def readValue : Nat → Nat → List Char → Except Fault (Tree × List Char)
  | 0, _, cs => .error ⟨cs, "recursion limit exceeded"⟩
  | fuel + 1, room, cs =>
    match cs with
    | '[' :: rest =>
      match room with
      | 0 => .error ⟨rest, "recursion limit exceeded"⟩
      | room + 1 => do
        match ← skipTrivia false rest with
        | ']' :: after => return (.list [], after)
        | inner =>
          let (items, after) ← readItems fuel room inner
          return (.list items, after)
    | '\x7b' :: rest =>
      match room with
      | 0 => .error ⟨rest, "recursion limit exceeded"⟩
      | room + 1 => do
        let (pairs, closing) ← readPairs fuel room (skipBlanks rest) rest
        let table ← (inlineTable pairs).mapError fun c => ⟨rest, c.inlineMessage⟩
        return (table, ← expect '\x7d' closing "invalid inline table\nexpected \x60\x7d\x60")
    | _ => readScalar cs

/-- The items of a list that has at least one, up to and with the closing bracket. -/
def readItems : Nat → Nat → List Char → Except Fault (List Tree × List Char)
  | 0, _, cs => .error ⟨cs, "recursion limit exceeded"⟩
  | fuel + 1, room, cs => do
    let expected := "invalid array\nexpected \x60]\x60"
    let (item, rest) ← readValue fuel room cs
    match ← (skipTrivia false rest).mapError fun _ => ⟨cs, expected⟩ with
    | ',' :: rest =>
      match ← skipTrivia false rest with
      | ']' :: after => return ([item], after)
      | inner =>
        let (items, after) ← readItems fuel room inner
        return (item :: items, after)
    | rest => return ([item], ← expect ']' rest expected)

/-- The keys of an inline table, and the text from where it has to be closed, which is `closing`
if no key stands here. -/
def readPairs : Nat → Nat → List Char → List Char → Except Fault (List KeyValue × List Char)
  | 0, _, _, cs => .error ⟨cs, "recursion limit exceeded"⟩
  | fuel + 1, room, closing, cs => do
    match ← readKey? cs with
    | none => return ([], closing)
    | some (key, rest) =>
      let (value, rest) ← readValue fuel room (← expectEquals rest)
      match skipBlanks rest with
      | ',' :: rest =>
        let (pairs, closing) ← readPairs fuel room (',' :: rest) rest
        return (⟨key, value⟩ :: pairs, closing)
      | closing => return ([⟨key, value⟩], closing)

end

/-- The text after the end of a line: blanks, a comment, and a line break or the end. -/
def endOfLine? (cs : List Char) : Option (List Char) :=
  let rest := match skipBlanks cs with
    | '#' :: comment => comment.dropWhile isPlain
    | rest => rest
  match rest with
  | [] => some []
  | _ => newline? rest

def endLine (cs : List Char) : Except Fault (List Char) :=
  match endOfLine? cs with
  | some after => .ok after
  | none => .error ⟨skipBlanks cs, "expected newline, \x60#\x60"⟩

/-- A header after its first bracket. -/
def readHeader (cs : List Char) : Except Fault (Header × List Char) :=
  let expected := "invalid table header\nexpected \x60.\x60, \x60]\x60"
  match cs with
  | '[' :: rest => do
    let (key, rest) ← readKey rest
    let rest ← expect ']' rest expected
    return (⟨key, true⟩, ← expect ']' rest expected)
  | _ => do
    let (key, rest) ← readKey cs
    return (⟨key, false⟩, ← expect ']' rest expected)

/-- One line after its leading blanks, and what follows it; a value may itself reach over several
lines. -/
def readLine (cs : List Char) : Except Fault (Line × List Char) :=
  match cs with
  | '[' :: rest => do
    let (h, rest) ← readHeader rest
    return (.header h, ← endLine rest)
  | _ =>
    match endOfLine? cs with
    | some after => .ok (.blank, after)
    | none => do
      let (key, rest) ← readKey cs
      let rest ← expectEquals rest
      let (value, rest) ← readValue (2 * rest.length + 2) nestingLimit rest
      return (.pair ⟨key, value⟩, ← endLine rest)

/-- A line added to a draft; what does not fit is blamed on the start of the line. -/
def Draft.addLine (d : Draft) (line : Line) (cs : List Char) : Except Fault Draft :=
  (d.add line).mapError fun c => ⟨cs, c.message (d.tableOf line)⟩

/-- All lines, put into a draft; every line takes at least one character of the text, so its
length is enough fuel. -/
def readLines : Nat → Draft → List Char → Except Fault Draft
  | _, d, [] => .ok d
  | 0, _, cs => .error ⟨cs, "recursion limit exceeded"⟩
  | fuel + 1, d, cs => do
    let (line, rest) ← readLine (skipBlanks cs)
    readLines fuel (← d.addLine line (skipBlanks cs)) rest

/-- The text without one byte order mark at its start. -/
def dropMark : List Char → List Char
  | '\ufeff' :: rest => rest
  | cs => cs

def read (text : String) : Except Fault Tree := do
  let cs := dropMark text.toList
  return (← readLines cs.length {} cs).toTree

/-- The data of a document whose tables may hold anything, so that each of them, but for the
document itself, may turn out to be a date-time. -/
def withOpenTables? : Tree → Option Tree
  | .record entries => do return .record (← entriesWithDateTimes entries)
  | t => some t

end RiscvBoot.Toml
