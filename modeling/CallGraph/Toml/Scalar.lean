import CallGraph.Json.Token
import CallGraph.Toml

/-!
**Words of a TOML document.**

* `Reader` — reads from the front of a list of characters, and may fail;
* `many`, `separated` — reading repeatedly;
* `text` — strings, between one or three quotes of either kind;
* `integer`, `float`, `moment` — numbers, dates and times;
* `scalar` — any value that holds no other.
-/

namespace CallGraph.Toml

/-- Reads from the front of a list of characters. -/
abbrev Reader := StateT (List Char) Option

namespace Reader

/-! ### Reading repeatedly -/

/-- Reads one character of a class. -/
def oneOf (accept : Char → Bool) : Reader Char := do
  match ← get with
  | [] => failure
  | c :: rest =>
    guard (accept c)
    set rest
    return c

/-- Reads all characters of a class up to the first other one. -/
def run (accept : Char → Bool) : Reader (List Char) := do
  let cs ← get
  set (cs.dropWhile accept)
  return cs.takeWhile accept

/-- Reads a given text. -/
def exactly (text : String) : Reader Unit := do
  let cs ← get
  guard (text.toList.isPrefixOf cs)
  set (cs.drop text.length)

/-- Reads something if it is there. -/
def maybe {α : Type} (p : Reader α) : Reader (Option α) :=
  (some <$> p) <|> pure none

/-- Reads something as often as it is there, at most `fuel` times. -/
def manyWith {α : Type} (p : Reader α) : Nat → Reader (List α)
  | 0 => return []
  | fuel + 1 => do
    match ← maybe p with
    | none => return []
    | some a => return a :: (← manyWith p fuel)

/-- Reads something as often as it is there. It takes at least one character each time. -/
def many {α : Type} (p : Reader α) : Reader (List α) := do
  manyWith p (← get).length

/-- Reads at least one entry, with separators between. -/
def separated {α : Type} (separator : String) (p : Reader α) : Reader (List α) := do
  let first ← p
  return first :: (← many (exactly separator *> p))

/-! ### Blanks and lines -/

/-- Blanks inside a line. -/
def isSpace (c : Char) : Bool :=
  c == ' ' || c == '\t'

/-- Characters that may stand in a comment or between quotes. -/
def isPlain (c : Char) : Bool :=
  c == '\t' || (32 ≤ c.toNat && c.toNat != 127)

/-- Passes over blanks inside a line. -/
def spaces : Reader Unit :=
  discard (run isSpace)

/-- Reads the end of a line. -/
def newLine : Reader Unit :=
  exactly "\n" <|> exactly "\r\n"

/-- Reads a comment. -/
def comment : Reader Unit := do
  exactly "#"
  discard (run isPlain)

/-! ### Strings -/

/-- The value of hexadecimal digits. -/
def hexValue? (digits : List Char) : Option Nat :=
  digits.foldlM (fun n c => (Json.hexDigit? c).map (16 * n + ·)) 0

/-- Reads the number of a character, in a given number of digits. -/
def characterCode (digits : Nat) : Reader Char := do
  let cs ← get
  let code ← hexValue? (cs.take digits)
  guard (digits ≤ cs.length)
  guard (code < 0xD800 || (0xDFFF < code && code < 0x110000))
  set (cs.drop digits)
  return Char.ofNat code

/-- Reads a character that is written after a backslash. -/
def escaped : Reader Char := do
  exactly "\\"
  let c ← oneOf fun _ => true
  if c = 'u' then characterCode 4
  else if c = 'U' then characterCode 8
  else
    guard (c ≠ '/')
    Json.simpleEscape? c

/-- Reads a backslash at the end of a line, and all blanks and empty lines after it. -/
def joinedLines : Reader Unit := do
  exactly "\\"
  spaces
  newLine
  discard (run fun c => isSpace c || c == '\n' || c == '\r')

/-- Reads one of the characters that stand for themselves between quotes. -/
def ordinary (quote : Char) (escapes : Bool) : Reader Char :=
  oneOf fun c => isPlain c && c != quote && !(escapes && c == '\\')

/-- Reads a string on one line. -/
def shortText (quote : Char) (escapes : Bool) : Reader String := do
  exactly quote.toString
  let cs ← many (if escapes then escaped <|> ordinary quote escapes else ordinary quote escapes)
  exactly quote.toString
  return String.ofList cs

/-- Reads one or two quotes that do not end a string between three. -/
def looseQuotes (quote : Char) : Reader (List Char) := do
  let quotes ← run (· == quote)
  guard (quotes.length = 1 || quotes.length = 2)
  return quotes

/-- Reads a part of a string that may have several lines. -/
def longPart (quote : Char) (escapes : Bool) : Reader (List Char) :=
  (guard escapes *> joinedLines *> pure []) <|>
    (guard escapes *> (fun c => [c]) <$> escaped) <|>
    ((fun c => [c]) <$> ordinary quote escapes) <|>
    (newLine *> pure ['\n']) <|>
    looseQuotes quote

/-- Reads the three quotes that end a string; up to two more in front of them belong to it. -/
def closingQuotes (quote : Char) : Reader (List Char) := do
  let cs ← get
  let count := (cs.takeWhile (· == quote)).length
  guard (3 ≤ count)
  let own := min (count - 3) 2
  set (cs.drop (own + 3))
  return List.replicate own quote

/-- Reads a string that may have several lines. A line break right after the quotes is none of
it. -/
def longText (quote : Char) (escapes : Bool) : Reader String := do
  exactly (String.ofList [quote, quote, quote])
  discard (maybe newLine)
  let parts ← many (longPart quote escapes)
  let last ← closingQuotes quote
  return String.ofList (parts.flatten ++ last)

/-- Reads a string on one line, as keys and values are written. -/
def quotedText : Reader String :=
  shortText '"' true <|> shortText '\'' false

/-- Reads a string. -/
def text : Reader String :=
  longText '"' true <|> longText '\'' false <|> quotedText

/-! ### Numbers -/

/-- Reads digits of a class; a low line may stand between two of them. -/
def digitsOf (accept : Char → Bool) : Reader (List Char) := do
  let first ← oneOf accept
  return first :: (← many (maybe (exactly "_") *> oneOf accept))

/-- Reads a sign, and says whether it is a minus. -/
def sign : Reader Bool := do
  match ← maybe (oneOf fun c => c == '+' || c == '-') with
  | some c => return c == '-'
  | none => return false

/-- Reads decimal digits: a zero alone, or digits that do not start with one. -/
def wholeDigits : Reader (List Char) := do
  let digits ← digitsOf Char.isDigit <|> ((fun c => [c]) <$> oneOf (· == '0'))
  guard (digits.head? ≠ some '0' || digits.length = 1)
  return digits

/-- Reads an integer that is written in another base than ten. -/
def basedInteger (start : String) (base : Nat) : Reader Int := do
  exactly start
  let accept := fun c => (Json.hexDigit? c).any (· < base)
  let digits ← digitsOf accept
  let n := digits.foldl (fun n c => base * n + (Json.hexDigit? c).getD 0) 0
  guard (Word.isSigned 64 n)
  return n

/-- Reads an integer. -/
def integer : Reader Int :=
  basedInteger "0x" 16 <|> basedInteger "0o" 8 <|> basedInteger "0b" 2 <|> do
    let negative ← sign
    let n := Json.decimal (← wholeDigits)
    let value : Int := if negative then -n else n
    guard (Word.isSigned 64 value)
    return value

/-- Reads a power of ten. -/
def exponent : Reader Int := do
  discard (oneOf fun c => c == 'e' || c == 'E')
  let negative ← sign
  let n := Json.decimal (← digitsOf Char.isDigit)
  return if negative then -n else n

/-- Reads a fraction. -/
def fraction : Reader (List Char) := do
  exactly "."
  digitsOf Char.isDigit

/-- Reads a number with a fraction or a power, unless it is beyond all doubles. -/
def decimalFloat : Reader Unit := do
  let negative ← sign
  let whole ← wholeDigits
  let places ← maybe fraction
  let power ← maybe exponent
  guard (places.isSome || power.isSome)
  let places := places.getD []
  guard (negative || !Json.isTooLarge (whole ++ places) (power.getD 0 - places.length))

/-- Reads a floating-point number. -/
def float : Reader Unit :=
  decimalFloat <|> do
    discard sign
    exactly "inf" <|> exactly "nan"

/-! ### Dates and times -/

/-- Reads a number of so many digits, in a range. -/
def field (digits low high : Nat) : Reader Nat := do
  let cs ← get
  let taken := cs.take digits
  guard (taken.length = digits && taken.all Char.isDigit)
  let n := Json.decimal taken
  guard (low ≤ n && n ≤ high)
  set (cs.drop digits)
  return n

/-- The number of days of a month. -/
def daysIn (year month : Nat) : Nat :=
  if month = 2 then
    if year % 4 = 0 && (year % 100 ≠ 0 || year % 400 = 0) then 29 else 28
  else if month = 4 || month = 6 || month = 9 || month = 11 then 30
  else 31

/-- Reads a date. -/
def date : Reader Unit := do
  let year ← field 4 0 9999
  exactly "-"
  let month ← field 2 1 12
  exactly "-"
  discard (field 2 1 (daysIn year month))

/-- Reads a time of day; its last second may be a leap second. -/
def time : Reader Unit := do
  discard (field 2 0 23)
  exactly ":"
  discard (field 2 0 59)
  exactly ":"
  discard (field 2 0 60)
  discard (maybe do
    exactly "."
    let digits ← run Char.isDigit
    guard !digits.isEmpty)

/-- Reads the distance of a time from universal time. -/
def offset : Reader Unit :=
  exactly "Z" <|> exactly "z" <|> do
    discard (oneOf fun c => c == '+' || c == '-')
    discard (field 2 0 23)
    exactly ":"
    discard (field 2 0 59)

/-- Reads a date, a time, or both. -/
def moment : Reader Unit :=
  (do
    date
    discard (maybe do
      discard (oneOf fun c => c == 'T' || c == 't' || c == ' ')
      time
      discard (maybe offset))) <|>
    time

/-- Reads a value that holds no other. -/
def scalar : Reader Toml :=
  (Toml.text <$> text) <|> (exactly "true" *> pure (.bool true)) <|>
    (exactly "false" *> pure (.bool false)) <|> (moment *> pure .moment) <|>
    (float *> pure .float) <|> (Toml.integer <$> integer)

end Reader

end CallGraph.Toml
