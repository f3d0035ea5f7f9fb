import NetOnChip.Decimal.Read
import NetOnChip.Settings.Document

/-!
# Reading documents

The text form of a document, TOML 1.0. A parser takes the characters that are left and answers what
it read together with the rest, or nothing if something else stands there. A text that cannot be
read to its end is refused as a whole.

Lists and inline tables may be nested, though not without limit (`nestingLimit`), and that limit
bounds the recursion of `setting`. All other loops read at least one character at a time, so the
number of characters bounds them.
-/

namespace NetOnChip

namespace Reader

/-- The characters that are left. -/
abbrev Input := List Char

/-- How deeply lists and tables may be nested, and how many keys a path may have. -/
def nestingLimit : Nat :=
  79

/-! ### Blanks, comments and lines -/

/-- A space or a tabulator. -/
def isBlank (c : Char) : Bool :=
  c = ' ' || c = '\t'

/-- A character that may stand in a comment or in a text between quotation marks. -/
def isPrintable (c : Char) : Bool :=
  c = '\t' || (0x20 ≤ c.toNat && c.toNat ≠ 0x7f)

/-- The rest after spaces and tabulators. -/
def skipBlanks (input : Input) : Input :=
  input.dropWhile isBlank

/-- The rest after given characters. -/
def skip? : List Char → Input → Option Input
  | [], input => some input
  | c :: cs, d :: input => if c = d then skip? cs input else none
  | _ :: _, [] => none

/-- The rest after the end of a line. -/
def skipNewline? : Input → Option Input
  | '\n' :: input => some input
  | '\r' :: '\n' :: input => some input
  | _ => none

/-- The rest after a comment, if there is one. -/
def skipComment : Input → Input
  | '#' :: input => input.dropWhile isPrintable
  | input => input

/-- The rest after blanks and new lines, and after comments too where they are allowed. -/
def skipGaps (comments : Bool) : Nat → Input → Input
  | 0, input => input
  | fuel + 1, input =>
    let input := skipBlanks input
    let input := if comments then skipComment input else input
    match skipNewline? input with
    | some input => skipGaps comments fuel input
    | none => input

/-! ### Numbers -/

/-- The value of a digit to a base of at most sixteen. -/
def digit? (base : Nat) (c : Char) : Option Nat :=
  let value :=
    if '0' ≤ c ∧ c ≤ '9' then c.toNat - '0'.toNat
    else if 'a' ≤ c ∧ c ≤ 'f' then c.toNat - 'a'.toNat + 10
    else if 'A' ≤ c ∧ c ≤ 'F' then c.toNat - 'A'.toNat + 10
    else base
  if value < base then some value else none

/-- A digit to base ten. -/
def isDigit (c : Char) : Bool :=
  (digit? 10 c).isSome

/-- The number that digits stand for. -/
def valueOf (base : Nat) (digits : List Nat) : Nat :=
  digits.foldl (fun n d ↦ n * base + d) 0

/-- Whether single underscores stand between digits and nowhere else. -/
def isSpaced (base : Nat) : List Char → Bool
  | [] => false
  | [c] => (digit? base c).isSome
  | c :: '_' :: cs => (digit? base c).isSome && isSpaced base cs
  | c :: cs => (digit? base c).isSome && isSpaced base cs

/-- Digits, where single underscores may stand between them. -/
def digits (base : Nat) (input : Input) : Option (List Nat × Input) :=
  let belongs (c : Char) : Bool := c = '_' || (digit? base c).isSome
  let run := input.takeWhile belongs
  if isSpaced base run then
    some (run.filterMap (digit? base), input.dropWhile belongs)
  else
    none

/-- A sign, if there is one; `true` stands for minus. -/
def sign : Input → Bool × Input
  | '-' :: input => (true, input)
  | '+' :: input => (false, input)
  | input => (false, input)

/-- A whole number, which has to fit into 64 bits. -/
def whole (negative : Bool) (n : Nat) : Option Setting :=
  if n < Nat.pow 2 63 ∨ (negative ∧ n = Nat.pow 2 63) then
    some (.whole (if negative then -n else n))
  else
    none

/-- A number with a fraction or an exponent. One beyond all doubles is refused, unless it has a
minus sign. -/
def real (negative : Bool) (digits : List Nat) (exponent : Int) : Option Setting :=
  let a := Decimal.toFloat (valueOf 10 digits) exponent
  if negative then some (.real (-a))
  else if a.isInf then none
  else some (.real a)

/-- The digits after a point, if there is one. -/
def fraction : Input → Option (List Nat × Input)
  | '.' :: input => digits 10 input
  | input => some ([], input)

/-- A power of ten after an `e`. -/
def exponent (input : Input) : Option (Int × Input) := do
  let (negative, input) := sign input
  let (ds, input) ← digits 10 input
  let n : Int := valueOf 10 ds
  return (if negative then -n else n, input)

/-- A number to base ten after its sign. -/
def decimalNumber (negative : Bool) (input : Input) : Option (Setting × Input) := do
  let (ds, input) ← digits 10 input
  if ds.head? = some 0 ∧ ds.length ≠ 1 then
    none
  else
    let (part, rest) ← fraction input
    let places : Int := part.length
    match rest with
    | 'e' :: rest | 'E' :: rest =>
      let (power, rest) ← exponent rest
      return (← real negative (ds ++ part) (power - places), rest)
    | _ =>
      if part.isEmpty then
        return (← whole negative (valueOf 10 ds), rest)
      else
        return (← real negative (ds ++ part) (-places), rest)

/-- A number to another base after its mark. -/
def markedNumber (base : Nat) (input : Input) : Option (Setting × Input) := do
  let (ds, input) ← digits base input
  return (← whole false (valueOf base ds), input)

/-- A number. -/
def number (input : Input) : Option (Setting × Input) :=
  match input with
  | '0' :: 'x' :: rest => markedNumber 16 rest
  | '0' :: 'o' :: rest => markedNumber 8 rest
  | '0' :: 'b' :: rest => markedNumber 2 rest
  | _ =>
    let (negative, rest) := sign input
    match rest with
    | 'i' :: 'n' :: 'f' :: rest =>
      let a : Float := 1.0 / 0.0
      some (.real (if negative then -a else a), rest)
    | 'n' :: 'a' :: 'n' :: rest => some (.real (0.0 / 0.0), rest)
    | _ => decimalNumber negative rest

/-! ### Dates and times -/

/-- A number with exactly so many digits. -/
def exactly (count : Nat) (input : Input) : Option (Nat × Input) :=
  let run := input.take count
  if run.length = count ∧ run.all isDigit then
    some (valueOf 10 (run.filterMap (digit? 10)), input.drop count)
  else
    none

/-- The number of days of a month. -/
def daysOf (year month : Nat) : Nat :=
  if month = 2 then
    if year % 4 = 0 ∧ (year % 100 ≠ 0 ∨ year % 400 = 0) then 29 else 28
  else if month = 4 ∨ month = 6 ∨ month = 9 ∨ month = 11 then
    30
  else
    31

/-- The rest after a date. -/
def skipDate? (input : Input) : Option Input := do
  let (year, input) ← exactly 4 input
  let (month, input) ← exactly 2 (← skip? ['-'] input)
  let (day, input) ← exactly 2 (← skip? ['-'] input)
  if 1 ≤ month ∧ month ≤ 12 ∧ 1 ≤ day ∧ day ≤ daysOf year month then some input else none

/-- The rest after hours and minutes. -/
def skipClock? (input : Input) : Option Input := do
  let (hours, input) ← exactly 2 input
  let (minutes, input) ← exactly 2 (← skip? [':'] input)
  if hours < 24 ∧ minutes < 60 then some input else none

/-- The rest after a time of the day. -/
def skipTime? (input : Input) : Option Input := do
  let (seconds, input) ← exactly 2 (← skip? [':'] (← skipClock? input))
  if 60 < seconds then
    none
  else
    match input with
    | '.' :: c :: rest => if isDigit c then some (rest.dropWhile isDigit) else none
    | _ => some input

/-- The rest after a time zone, if there is one. -/
def skipZone? : Input → Option Input
  | 'Z' :: input | 'z' :: input => some input
  | '+' :: input | '-' :: input => skipClock? input
  | input => some input

/-- Whether a time of the day begins. -/
def beginsTime (input : Input) : Bool :=
  match exactly 2 input with
  | some (_, ':' :: _) => true
  | _ => false

/-- The rest after a date, a time, or both, if one begins. -/
def skipMoment? (input : Input) : Option Input :=
  if beginsTime input then
    skipTime? input
  else do
    let input ← skipDate? input
    match input with
    | c :: rest =>
      if (c = 'T' ∨ c = 't' ∨ c = ' ') ∧ beginsTime rest then
        skipZone? (← skipTime? rest)
      else
        some input
    | [] => some input

/-- Whether a date or a time begins. -/
def beginsMoment (input : Input) : Bool :=
  beginsTime input ||
    match exactly 4 input with
    | some (_, '-' :: _) => true
    | _ => false

/-! ### Texts -/

/-- A character given by the value of so many digits to base sixteen. -/
def numbered (count : Nat) (input : Input) : Option (Char × Input) :=
  let run := input.take count
  let n := valueOf 16 (run.filterMap (digit? 16))
  if run.length = count ∧ run.all (fun c ↦ (digit? 16 c).isSome) ∧ n.isValidChar then
    some (Char.ofNat n, input.drop count)
  else
    none

/-- The character that stands for what follows a backslash. -/
def escaped : Input → Option (Char × Input)
  | 'b' :: input => some ('\x08', input)
  | 't' :: input => some ('\t', input)
  | 'n' :: input => some ('\n', input)
  | 'f' :: input => some ('\x0c', input)
  | 'r' :: input => some ('\r', input)
  | '"' :: input => some ('"', input)
  | '\\' :: input => some ('\\', input)
  | 'u' :: input => numbered 4 input
  | 'U' :: input => numbered 8 input
  | _ => none

/-- The characters up to the quotation mark that ends a text on one line. -/
def quotedText : Nat → Input → Option (List Char × Input)
  | 0, _ => none
  | _ + 1, [] => none
  | fuel + 1, c :: input =>
    if c = '"' then
      some ([], input)
    else if c = '\\' then do
      let (d, input) ← escaped input
      let (cs, input) ← quotedText fuel input
      return (d :: cs, input)
    else if isPrintable c then do
      let (cs, input) ← quotedText fuel input
      return (c :: cs, input)
    else
      none

/-- The characters up to the apostrophe that ends a text on one line without escapes. -/
def literalText (input : Input) : Option (List Char × Input) :=
  let belongs (c : Char) : Bool := c ≠ '\'' && isPrintable c
  match input.dropWhile belongs with
  | '\'' :: rest => some (input.takeWhile belongs, rest)
  | _ => none

/-- The rest after a backslash that ends a line and the white space that follows. -/
def skipLineEnd? (input : Input) : Option Input :=
  (skipNewline? (skipBlanks input)).map fun rest ↦ skipGaps false rest.length rest

/-- The characters up to three closing marks. Up to two marks in front of them belong to the text,
and backslashes are escapes if the text has any. -/
def longText (mark : Char) (escapes : Bool) : Nat → Input → Option (List Char × Input)
  | 0, _ => none
  | _ + 1, [] => none
  | fuel + 1, c :: input =>
    if c = mark then
      let marks := 1 + (input.takeWhile (· = mark)).length
      if marks < 3 then do
        let (cs, input) ← longText mark escapes fuel input
        return (c :: cs, input)
      else if marks ≤ 5 then
        some (List.replicate (marks - 3) mark, input.drop (marks - 1))
      else
        none
    else if c = '\\' ∧ escapes then
      match skipLineEnd? input with
      | some input => longText mark escapes fuel input
      | none => do
        let (d, input) ← escaped input
        let (cs, input) ← longText mark escapes fuel input
        return (d :: cs, input)
    else
      match skipNewline? (c :: input) with
      | some input => do
        let (cs, input) ← longText mark escapes fuel input
        return ('\n' :: cs, input)
      | none =>
        if isPrintable c then do
          let (cs, input) ← longText mark escapes fuel input
          return (c :: cs, input)
        else
          none

/-- The rest after a new line that follows three opening marks. -/
def skipFirstNewline (input : Input) : Input :=
  (skipNewline? input).getD input

/-- A text on one line, for a key or a value. -/
def shortText : Input → Option (String × Input)
  | '"' :: input => (quotedText (input.length + 1) input).map fun (cs, rest) ↦
    (String.ofList cs, rest)
  | '\'' :: input => (literalText input).map fun (cs, rest) ↦ (String.ofList cs, rest)
  | _ => none

/-- A text. -/
def text (input : Input) : Option (String × Input) :=
  let long (mark : Char) (escapes : Bool) (rest : Input) : Option (String × Input) :=
    (longText mark escapes (rest.length + 1) (skipFirstNewline rest)).map fun (cs, rest) ↦
      (String.ofList cs, rest)
  match input with
  | '"' :: '"' :: '"' :: rest => long '"' true rest
  | '\'' :: '\'' :: '\'' :: rest => long '\'' false rest
  | _ => shortText input

/-! ### Keys -/

/-- A character of a key without quotation marks. -/
def isBare (c : Char) : Bool :=
  c.isAlphanum || c = '_' || c = '-'

/-- A single key. -/
def simpleKey (input : Input) : Option (String × Input) :=
  match input.takeWhile isBare with
  | [] => shortText input
  | cs => some (String.ofList cs, input.dropWhile isBare)

/-- Keys with points between them. -/
def keys : Nat → Input → Option (List String × Input)
  | 0, _ => none
  | fuel + 1, input => do
    let (key, input) ← simpleKey (skipBlanks input)
    match skipBlanks input with
    | '.' :: input =>
      let (path, input) ← keys fuel input
      return (key :: path, input)
    | input => return ([key], input)

/-- A path of keys: all but the last one, and the last one. -/
def path (input : Input) : Option (List String × String × Input) := do
  let (keys, input) ← keys nestingLimit input
  match keys.getLast? with
  | some key => some (keys.dropLast, key, input)
  | none => none

/-! ### Values -/

/-- A value that contains no other values. -/
def simpleSetting (input : Input) : Option (Setting × Input) :=
  match input with
  | '"' :: _ | '\'' :: _ => (text input).map fun (s, rest) ↦ (.text s, rest)
  | 't' :: _ => (skip? ['t', 'r', 'u', 'e'] input).map fun rest ↦ (.truth true, rest)
  | 'f' :: _ => (skip? ['f', 'a', 'l', 's', 'e'] input).map fun rest ↦ (.truth false, rest)
  | _ =>
    if beginsMoment input then
      (skipMoment? input).map fun rest ↦ (.moment, rest)
    else
      number input

/-- A key with its value. -/
def pair (setting : Input → Option (Setting × Input)) (input : Input) :
    Option (List String × String × Setting × Input) := do
  let (path, key, input) ← path input
  let input ← skip? ['='] (skipBlanks input)
  let (value, input) ← setting (skipBlanks input)
  return (path, key, value, input)

/-- The items of a list up to its closing bracket. -/
def items (setting : Input → Option (Setting × Input)) :
    Nat → Input → Option (List Setting × Input)
  | 0, _ => none
  | fuel + 1, input => do
    match skipGaps true input.length input with
    | ']' :: rest => return ([], rest)
    | input =>
      let (value, input) ← setting input
      match skipGaps true input.length input with
      | ',' :: rest =>
        let (values, rest) ← items setting fuel rest
        return (value :: values, rest)
      | ']' :: rest => return ([value], rest)
      | _ => none

/-- The keys and values of an inline table up to its closing brace. -/
def pairs (setting : Input → Option (Setting × Input)) :
    Nat → Entries → Input → Option (Entries × Input)
  | 0, _, _ => none
  | fuel + 1, e, input => do
    let (path, key, value, input) ← pair setting input
    let e ← Entries.give path key value .inline e
    match skipBlanks input with
    | ',' :: rest => pairs setting fuel e rest
    | '\x7d' :: rest => return (e, rest)
    | _ => none

/-- A value, in which lists and tables may be nested so deeply. -/
def setting : Nat → Input → Option (Setting × Input)
  | 0, input => simpleSetting input
  | depth + 1, input =>
    match input with
    | '[' :: rest =>
      (items (setting depth) (rest.length + 1) rest).map fun (values, rest) ↦ (.list values, rest)
    | '\x7b' :: rest =>
      match skipBlanks rest with
      | '\x7d' :: rest => some (.table .inline [], rest)
      | rest =>
        (pairs (setting depth) (rest.length + 1) [] rest).map fun (e, rest) ↦
          (.table .inline e, rest)
    | _ => simpleSetting input

/-! ### Documents -/

/-- A statement. -/
def statement (input : Input) : Option (Statement × Input) :=
  match input with
  | '[' :: '[' :: rest => do
    let (path, key, rest) ← path rest
    return (.openAnother path key, ← skip? [']', ']'] rest)
  | '[' :: rest => do
    let (path, key, rest) ← path rest
    return (.openTable path key, ← skip? [']'] rest)
  | _ => do
    let (path, key, value, rest) ← pair (setting nestingLimit) input
    return (.give path key value, rest)

/-- The lines of a document, one after the other. -/
def lines : Nat → Document → Input → Option Document
  | 0, _, _ => none
  | fuel + 1, d, input => do
    let input := skipBlanks input
    let (d, input) ←
      match input with
      | [] | '#' :: _ | '\n' :: _ | '\r' :: _ => some (d, input)
      | _ => do
        let (s, input) ← statement input
        pure (← d.add s, input)
    match skipComment (skipBlanks input) with
    | [] => return d
    | input => lines fuel d (← skipNewline? input)

/-- The keys and values of a text. A mark for the order of bytes in front of it does not count. -/
def document (s : String) : Option Entries :=
  let input := match s.toList with
    | '\ufeff' :: input => input
    | input => input
  (lines (input.length + 1) .empty input).map (·.root)

end Reader

end NetOnChip
