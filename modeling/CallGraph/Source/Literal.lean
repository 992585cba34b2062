import CallGraph.Text
import CallGraph.Text.Identifier

/-!
**Literals of a source text.**

Where a literal ends, and what it stands for. The scanners below look at the characters from where a
literal may begin and say how many of them it takes.

* `Literal` — numbers keep their text, strings their value, the rest nothing;
* `scanText?`, `scanRaw?`, `scanQuoted?`, `scanDecimal?`, `scanWhole?` — the forms of literals;
* `Literal.scan?` — the literal at the start of a list of characters;
* `valueOf` — the characters that a string with escapes stands for (`valueOf_plain`).
-/

namespace CallGraph.Source

open Text.Identifier (isStart isContinue)

/-- A literal, as far as its value matters. -/
inductive Literal where
  /-- A string and the characters it stands for. -/
  | text (value : String)
  /-- A whole number as it is written. -/
  | whole (digits : String)
  /-- A number with a point or an exponent as it is written. -/
  | decimal (digits : String)
  /-- A character, a byte, or a string of bytes. -/
  | other
  deriving DecidableEq, Repr

/-- What strings are made of. -/
inductive Alphabet where
  | characters
  /-- ASCII characters, and bytes by number. -/
  | bytes
  /-- Characters other than NUL. -/
  | nonzero
  deriving DecidableEq

namespace Literal

/-! ### Escapes -/

/-- The value of a hexadecimal digit. -/
def hexValue? (c : Char) : Option Nat :=
  if '0' ≤ c && c ≤ '9' then some (c.toNat - '0'.toNat)
  else if 'a' ≤ c && c ≤ 'f' then some (c.toNat - 'a'.toNat + 10)
  else if 'A' ≤ c && c ≤ 'F' then some (c.toNat - 'A'.toNat + 10)
  else none

/-- The code point between braces: up to six hexadecimal digits, underscores after the first. -/
def braced? (value digits : Nat) : List Char → Option Nat
  | [] => none
  | c :: rest =>
    if c = '_' && 0 < digits then braced? value digits rest
    else if c = '\x7d' && 0 < digits then
      if value.isValidChar then some value else none
    else
      match hexValue? c with
      | some d => if digits = 6 then none else braced? (value * 16 + d) (digits + 1) rest
      | none => none

/-- The number that two hexadecimal digits give. -/
def pair? : List Char → Option Nat
  | a :: b :: _ =>
    match hexValue? a, hexValue? b with
    | some high, some low => some (high * 16 + low)
    | _, _ => none
  | _ => none

/-- Whether an escape may follow a backslash. -/
def isEscape (alphabet : Alphabet) : List Char → Bool
  | 'x' :: rest =>
    match pair? rest, alphabet with
    | some n, .characters => n < 128
    | some _, .bytes => true
    | some n, .nonzero => 0 < n
    | none, _ => false
  | 'u' :: '\x7b' :: rest =>
    match braced? 0 0 rest, alphabet with
    | some _, .characters => true
    | some n, .nonzero => 0 < n
    | _, _ => false
  | '0' :: _ => alphabet != .nonzero
  | c :: _ => c ∈ ['n', 'r', 't', '\\', '\'', '"']
  | [] => false

/-- Whether a line may be broken after a backslash. -/
def isLineBreak : List Char → Bool
  | '\n' :: _ => true
  | '\r' :: '\n' :: _ => true
  | _ => false

/-- Whether a character may stand for itself in a string. -/
def admits (alphabet : Alphabet) (c : Char) : Bool :=
  match alphabet with
  | .characters => true
  | .bytes => c.toNat < 128
  | .nonzero => c != '\x00'

/-! ### Where a literal ends -/

/-- The length of the name at the start, if there is one. -/
def nameLength : List Char → Nat
  | [] => 0
  | c :: rest => if isStart c then 1 + (rest.takeWhile isContinue).length else 0

/-- The length of what stands before a closing quote, the quote included. -/
def closing? (alphabet : Alphabet) : List Char → Option Nat
  | [] => none
  | '"' :: _ => some 1
  | '\\' :: c :: rest =>
    if isEscape alphabet (c :: rest) || isLineBreak (c :: rest) then
      (closing? alphabet rest).map (· + 2)
    else none
  | '\r' :: c :: rest => if c = '\n' then (closing? alphabet rest).map (· + 2) else none
  | c :: rest =>
    if c = '\\' || c = '\r' || !admits alphabet c then none
    else (closing? alphabet rest).map (· + 1)

/-- The length of what stands before a quote and `fence`, those included. -/
def closingFence? (alphabet : Alphabet) (fence : List Char) : List Char → Option Nat
  | [] => none
  | c :: rest =>
    if c = '"' && fence.isPrefixOf rest then some (1 + fence.length)
    else if c = '\r' && rest.head? != some '\n' then none
    else if admits alphabet c then (closingFence? alphabet fence rest).map (· + 1)
    else none

/-- The length of a string with escapes that follows `start`. -/
def scanText? (alphabet : Alphabet) (start : List Char) (cs : List Char) : Option Nat :=
  if (start ++ ['"']).isPrefixOf cs then
    (closing? alphabet (cs.drop (start.length + 1))).map (· + start.length + 1)
  else none

/-- The length of a string without escapes that follows `start`, and the length of its fence. -/
def scanRaw? (alphabet : Alphabet) (start : List Char) (cs : List Char) : Option (Nat × Nat) :=
  if start.isPrefixOf cs then
    let fence := (cs.drop start.length).takeWhile (· == '#')
    let rest := cs.drop (start.length + fence.length)
    if rest.head? = some '"' && fence.length ≤ 255 then
      (closingFence? alphabet fence (rest.drop 1)).map fun n =>
        (start.length + fence.length + 1 + n, fence.length)
    else none
  else none

/-- The length of one character between single quotes, the opening one excluded. -/
def oneQuoted? (alphabet : Alphabet) : List Char → Option Nat
  | '\\' :: rest =>
    if isEscape alphabet rest then
      match rest with
      | 'x' :: _ :: _ :: '\'' :: _ => some 5
      | 'u' :: after =>
        let code := after.takeWhile (· != '\x7d')
        if (after.drop (code.length + 1)).head? = some '\'' then some (code.length + 4) else none
      | 'x' :: _ => none
      | _ :: '\'' :: _ => some 3
      | _ => none
    else none
  | c :: '\'' :: _ => if admits alphabet c then some 2 else none
  | _ => none

/-- The length of a character literal that follows `start`. -/
def scanQuoted? (alphabet : Alphabet) (start : List Char) (cs : List Char) : Option Nat :=
  if (start ++ ['\'']).isPrefixOf cs then
    (oneQuoted? alphabet (cs.drop (start.length + 1))).map (· + start.length + 1)
  else none

/-- The length of an exponent after its letter: a sign, and at least one digit. -/
def exponent? (signed valued : Bool) : List Char → Option Nat
  | [] => if valued then some 0 else none
  | c :: rest =>
    if c = '+' || c = '-' then
      if valued then some 0
      else if signed then none
      else (exponent? true valued rest).map (· + 1)
    else if c.isDigit then (exponent? signed true rest).map (· + 1)
    else if c = '_' then (exponent? signed valued rest).map (· + 1)
    else if valued then some 0
    else none

/-- Whether a character belongs to a run of digits. -/
def isDigitOrLine (c : Char) : Bool :=
  c.isDigit || c == '_'

/-- The length of a number with a point or an exponent, without what is attached to it. -/
def decimalDigits? (cs : List Char) : Option Nat :=
  if cs.head?.any (·.isDigit) then
    let whole := (cs.takeWhile isDigitOrLine).length
    match cs.drop whole with
    | '.' :: rest =>
      if rest.head?.any fun c => c == '.' || isStart c then none
      else
        let places := (rest.takeWhile isDigitOrLine).length
        match rest.drop places with
        | c :: after =>
          if c = 'e' || c = 'E' then
            match exponent? false false after with
            | some n => some (whole + 1 + places + 1 + n)
            | none => some (whole + 1 + places)
          else some (whole + 1 + places)
        | [] => some (whole + 1 + places)
    | c :: after =>
      if c = 'e' || c = 'E' then (exponent? false false after).map (whole + 1 + ·) else none
    | [] => none
  else none

/-- The base that a number is written in, and the length of the mark that says so. -/
def baseOf : List Char → Nat × Nat
  | '0' :: 'x' :: _ => (16, 2)
  | '0' :: 'o' :: _ => (8, 2)
  | '0' :: 'b' :: _ => (2, 2)
  | _ => (10, 0)

/-- The length of a run of digits of a base; it needs at least one. -/
def digitsIn? (base : Nat) (empty : Bool) : List Char → Option Nat
  | [] => if empty then none else some 0
  | c :: rest =>
    if c.isDigit then
      if base ≤ c.toNat - '0'.toNat then none else (digitsIn? base false rest).map (· + 1)
    else if c = '_' then
      if empty && base = 10 then none else (digitsIn? base empty rest).map (· + 1)
    else
      match hexValue? c with
      | some d =>
        if base ≤ d then (if empty then none else some 0)
        else (digitsIn? base false rest).map (· + 1)
      | none => if empty then none else some 0

/-- The length of a number with a name attached to it, unless the number runs on. -/
def withSuffix (cs : List Char) (digits : Nat) : Option Nat :=
  let n := digits + nameLength (cs.drop digits)
  if (cs.drop n).head?.any isContinue then none else some n

/-- The length of a number with a point or an exponent. -/
def scanDecimal? (cs : List Char) : Option Nat :=
  (decimalDigits? cs).bind (withSuffix cs)

/-- The length of a whole number. -/
def scanWhole? (cs : List Char) : Option Nat :=
  let (base, mark) := baseOf cs
  (digitsIn? base true (cs.drop mark)).bind fun n => withSuffix cs (mark + n)

/-! ### What a string stands for -/

/-- Where a reader of escapes is. -/
inductive Mode where
  | plain
  /-- After a backslash. -/
  | escape
  /-- In an escape of two digits, with `left` to come. -/
  | pair (left value : Nat)
  /-- In a code point between braces. -/
  | braced (value : Nat)
  /-- After a line that a backslash ends. -/
  | blanks

/-- What a letter after a backslash stands for. -/
def escaped (c : Char) : Char :=
  if c = 'n' then '\n' else if c = 'r' then '\r' else if c = 't' then '\t'
  else if c = '0' then '\x00' else c

/-- One character more, outside of escapes. -/
def readPlain (done : List Char) (c : Char) : List Char × Mode :=
  if c = '\\' then (done, .escape)
  else if c = '\r' then (done, .plain)
  else (c :: done, .plain)

/-- One character more; what is read so far stands in reverse order. -/
def readChar : List Char × Mode → Char → List Char × Mode
  | (done, .plain), c => readPlain done c
  | (done, .escape), c =>
    if c = 'x' then (done, .pair 2 0)
    else if c = 'u' then (done, .braced 0)
    else if c = '\n' || c = '\r' then (done, .blanks)
    else (escaped c :: done, .plain)
  | (done, .pair left value), c =>
    let value := value * 16 + (hexValue? c).getD 0
    if left ≤ 1 then (Char.ofNat value :: done, .plain) else (done, .pair (left - 1) value)
  | (done, .braced value), c =>
    if c = '\x7d' then (Char.ofNat value :: done, .plain)
    else
      match hexValue? c with
      | some d => (done, .braced (value * 16 + d))
      | none => (done, .braced value)
  | (done, .blanks), c => if Text.isBlank c then (done, .blanks) else readPlain done c

/-- The characters that a string with escapes stands for. -/
def valueOf (cs : List Char) : List Char :=
  (cs.foldl readChar ([], .plain)).1.reverse

/-- A string without backslashes and carriage returns stands for itself. -/
theorem valueOf_plain {cs : List Char} (plain : ∀ c ∈ cs, c ≠ '\\' ∧ c ≠ '\r') :
    valueOf cs = cs := by
  have run : ∀ (cs done : List Char), (∀ c ∈ cs, c ≠ '\\' ∧ c ≠ '\r') →
      cs.foldl readChar (done, .plain) = (cs.reverse ++ done, .plain) := by
    intro cs
    induction cs with
    | nil => intros; rfl
    | cons c rest hyp =>
      intro done all
      have here := all c List.mem_cons_self
      rw [List.foldl_cons, readChar, readPlain, if_neg here.1, if_neg here.2,
        hyp _ fun d inRest => all d (List.mem_cons_of_mem c inRest)]
      simp
  rw [valueOf, run cs [] plain]
  simp

/-! ### The literal at a place -/

/-- The characters of a string between its quotes, without `before` characters in front and `after`
behind. -/
def inner (cs : List Char) (before length after : Nat) : List Char :=
  (cs.take (length - after)).drop before

/-- The literal at the start of a list of characters, and its length without a suffix. -/
def unsuffixed? (cs : List Char) : Option (Nat × Literal) :=
  if let some n := scanText? .characters [] cs then
    some (n, .text (String.ofList (valueOf (inner cs 1 n 1))))
  else if let some (n, fence) := scanRaw? .characters ['r'] cs then
    some (n, .text (String.ofList (inner cs (fence + 2) n (fence + 1))))
  else if let some n := scanText? .bytes ['b'] cs then some (n, .other)
  else if let some (n, _) := scanRaw? .bytes ['b', 'r'] cs then some (n, .other)
  else if let some n := scanText? .nonzero ['c'] cs then some (n, .other)
  else if let some (n, _) := scanRaw? .nonzero ['c', 'r'] cs then some (n, .other)
  else if let some n := scanQuoted? .bytes ['b'] cs then some (n, .other)
  else if let some n := scanQuoted? .characters [] cs then some (n, .other)
  else none

/-- The literal at the start of a list of characters, and its length. -/
def scan? (cs : List Char) : Option (Nat × Literal) :=
  match unsuffixed? cs with
  | some (n, l) => some (n + nameLength (cs.drop n), l)
  | none =>
    match scanDecimal? cs with
    | some n => some (n, .decimal (String.ofList (cs.take n)))
    | none => (scanWhole? cs).map fun n => (n, .whole (String.ofList (cs.take n)))

end Literal

end CallGraph.Source
