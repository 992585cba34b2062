import CallGraph.Json
import CallGraph.Word

/-!
**The words of a JSON text.**

A text is cut into tokens from left to right. Where it goes wrong a token says so and nothing
follows, so whoever reads the tokens in order meets the first fault first.

* `scanString`, `scanNumber`, `scanWord` — the longer tokens (`scanString_lt`, `scanNumber_lt`: they
  take something);
* `next?` — the next token (`next?_lt`);
* `tokens` — the tokens of a text.
-/

namespace CallGraph.Json

/-- A piece of a JSON text. -/
inductive Token where
  | openObject
  | closeObject
  | openArray
  | closeArray
  | comma
  | colon
  | null
  | bool (b : Bool)
  | number (n : JsonNumber)
  | string (s : String)
  /-- A string in which an escape stands for half of a character. -/
  | halfString
  /-- Something that begins no token, or breaks off inside one. -/
  | malformed
  deriving DecidableEq

/-! ### Strings -/

/-- The value of a hexadecimal digit. -/
def hexDigit? (c : Char) : Option Nat :=
  if '0' ≤ c && c ≤ '9' then some (c.toNat - '0'.toNat)
  else if 'a' ≤ c && c ≤ 'f' then some (c.toNat - 'a'.toNat + 10)
  else if 'A' ≤ c && c ≤ 'F' then some (c.toNat - 'A'.toNat + 10)
  else none

/-- The value of four hexadecimal digits. -/
def hexCode? (a b c d : Char) : Option Nat := do
  let a ← hexDigit? a
  let b ← hexDigit? b
  let c ← hexDigit? c
  let d ← hexDigit? d
  return ((a * 16 + b) * 16 + c) * 16 + d

/-- Whether a code is the first half of a character beyond the basic plane. -/
def isHighHalf (code : Nat) : Bool :=
  0xD800 ≤ code && code ≤ 0xDBFF

/-- Whether a code is the second half of such a character. -/
def isLowHalf (code : Nat) : Bool :=
  0xDC00 ≤ code && code ≤ 0xDFFF

/-- The character of two halves. -/
def joinHalves (high low : Nat) : Char :=
  Char.ofNat (0x10000 + (high - 0xD800) * 0x400 + (low - 0xDC00))

/-- The character of an escape of one letter. -/
def simpleEscape? (c : Char) : Option Char :=
  if c = '"' || c = '\\' || c = '/' then some c
  else if c = 'b' then some '\x08'
  else if c = 'f' then some '\x0c'
  else if c = 'n' then some '\n'
  else if c = 'r' then some '\r'
  else if c = 't' then some '\t'
  else none

/-- A string read up to its closing quote. -/
structure ScannedString where
  text : List Char
  /-- Every escape stands for a whole character. -/
  whole : Bool
  rest : List Char

namespace ScannedString

/-- The string with a character in front. -/
def push (c : Char) (s : ScannedString) : ScannedString :=
  { s with text := c :: s.text }

/-- The string with half a character in front. -/
def pushHalf (s : ScannedString) : ScannedString :=
  { s with whole := false }

/-- The token of a string. -/
def token (s : ScannedString) : Token :=
  if s.whole then .string (String.ofList s.text) else .halfString

end ScannedString

/-- The second half of a character, if an escape for one comes next, and what follows it. -/
def secondHalf? : List Char → Option (Nat × List Char)
  | '\\' :: 'u' :: a :: b :: c :: d :: rest =>
    match hexCode? a b c d with
    | some code => if isLowHalf code then some (code, rest) else none
    | none => none
  | _ => none

/-- The second half of a character takes something. -/
theorem secondHalf?_lt {cs : List Char} {r : Nat × List Char} (found : secondHalf? cs = some r) :
    r.2.length < cs.length := by
  unfold secondHalf? at found
  split at found
  · split at found
    · split at found
      · simp only [Option.some.injEq] at found
        subst found
        simp only [List.length_cons]
        omega
      · simp at found
    · simp at found
  · simp at found

/-- Reads what follows an opening quote, up to the closing one. -/
def scanString (cs : List Char) : Option ScannedString :=
  match cs with
  | [] => none
  | c :: rest =>
    if c = '"' then some ⟨[], true, rest⟩
    else if c = '\\' then
      match rest with
      | 'u' :: a :: b :: c :: d :: more =>
        match hexCode? a b c d with
        | none => none
        | some code =>
          if isHighHalf code then
            match _isSecond : secondHalf? more with
            | some (second, after) => (scanString after).map (.push (joinHalves code second))
            | none => (scanString more).map .pushHalf
          else if isLowHalf code then (scanString more).map .pushHalf
          else (scanString more).map (.push (Char.ofNat code))
      | 'u' :: _ => none
      | e :: more =>
        match simpleEscape? e with
        | some c => (scanString more).map (.push c)
        | none => none
      | [] => none
    else if c.toNat < 32 then none
    else (scanString rest).map (.push c)
termination_by cs.length
decreasing_by
  all_goals simp only [List.length_cons]
  all_goals first
    | omega
    | (have shorter := secondHalf?_lt _isSecond; simp only at shorter; omega)

/-- Reading a string takes at least the closing quote. -/
theorem scanString_lt {cs : List Char} {s : ScannedString} (found : scanString cs = some s) :
    s.rest.length < cs.length := by
  fun_induction scanString cs generalizing s
  all_goals simp only [Option.map_eq_some_iff, reduceCtorEq, Option.some.injEq] at found
  all_goals simp only [List.length_cons]
  all_goals first
    | (subst found; simp only; omega)
    | (obtain ⟨t, isString, rfl⟩ := found
       have shorter := (by assumption :
         ∀ {s : ScannedString}, scanString _ = some s → s.rest.length < _) isString
       simp only [ScannedString.push, ScannedString.pushHalf]
       first
         | omega
         | (have less := secondHalf?_lt (by assumption); simp only at less; omega))

/-! ### Numbers -/

/-- The value of decimal digits. -/
def decimal (digits : List Char) : Nat :=
  digits.foldl (fun n c => 10 * n + (c.toNat - '0'.toNat)) 0

/-- The least number that a double has no room for: halfway from the largest double to the next
power of two. -/
def doubleLimit : Nat :=
  Nat.pow 2 1024 - Nat.pow 2 970

/-- Whether `digits` with the point moved `scale` places to the right is too large for a double. -/
def isTooLarge (digits : List Char) (scale : Int) : Bool :=
  let significant := digits.dropWhile (· == '0')
  let places := (significant.length : Int) + scale
  if significant.isEmpty || places ≤ 308 then false
  else if 310 ≤ places then true
  else if 0 ≤ scale then doubleLimit ≤ decimal significant * Nat.pow 10 scale.toNat
  else doubleLimit * Nat.pow 10 (-scale).toNat ≤ decimal significant

/-- A number by its parts: sign, digits before and after the point, power of ten. -/
def classify (negative : Bool) (whole fraction : List Char) (exponent : Option Int) (point : Bool) :
    JsonNumber :=
  if !negative && !point && exponent.isNone && decimal whole ≤ Word.largest 64 then
    .natural (decimal whole)
  else if isTooLarge (whole ++ fraction) (exponent.getD 0 - fraction.length) then .tooLarge
  else .other

/-- The leading digits of a list, and what follows them. -/
def digits (cs : List Char) : List Char × List Char :=
  (cs.takeWhile Char.isDigit, cs.dropWhile Char.isDigit)

/-- Reads a power of ten, if one follows. The outer `none` says that it breaks off. -/
def scanExponent (cs : List Char) : Option (Option Int × List Char) :=
  match cs with
  | c :: rest =>
    if c = 'e' || c = 'E' then
      let (negative, body) :=
        match rest with
        | '+' :: more => (false, more)
        | '-' :: more => (true, more)
        | _ => (false, rest)
      let (ds, after) := digits body
      if ds.isEmpty then none
      else
        some (some (if negative then -(decimal ds : Int) else (decimal ds : Int)), after)
    else some (none, cs)
  | [] => some (none, [])

/-- Reads a fraction, if one follows. The outer `none` says that it breaks off. -/
def scanFraction (cs : List Char) : Option (Option (List Char) × List Char) :=
  match cs with
  | '.' :: rest =>
    let (ds, after) := digits rest
    if ds.isEmpty then none else some (some ds, after)
  | _ => some (none, cs)

/-- Reads the digits before the point: a zero alone, or digits that do not start with one. -/
def scanWhole (cs : List Char) : Option (List Char × List Char) :=
  match digits cs with
  | ([], _) => none
  | ('0' :: _ :: _, _) => none
  | (ds, rest) => some (ds, rest)

/-- Reads an unsigned number. -/
def scanUnsigned (negative : Bool) (cs : List Char) : Option (JsonNumber × List Char) := do
  let (whole, afterWhole) ← scanWhole cs
  let (fraction, afterFraction) ← scanFraction afterWhole
  let (exponent, rest) ← scanExponent afterFraction
  return (classify negative whole (fraction.getD []) exponent fraction.isSome, rest)

/-- Reads a number. -/
def scanNumber (cs : List Char) : Option (JsonNumber × List Char) :=
  match cs with
  | '-' :: rest => scanUnsigned true rest
  | _ => scanUnsigned false cs

/-- Passing over digits does not lengthen a list. -/
theorem digits_le (cs : List Char) : (digits cs).2.length ≤ cs.length := by
  simpa [digits] using (List.dropWhile_sublist Char.isDigit (l := cs)).length_le

/-- If there are leading digits, passing over them shortens a list. -/
theorem digits_lt {cs : List Char} (some : (digits cs).1 ≠ []) :
    (digits cs).2.length < cs.length := by
  have whole := congrArg List.length (List.takeWhile_append_dropWhile (p := Char.isDigit) (l := cs))
  rw [List.length_append] at whole
  have : 0 < (cs.takeWhile Char.isDigit).length := List.length_pos_iff.2 some
  simp only [digits]
  omega

/-- Reading the digits before the point takes something. -/
theorem scanWhole_lt {cs : List Char} {r : List Char × List Char} (found : scanWhole cs = some r) :
    r.2.length < cs.length := by
  unfold scanWhole at found
  split at found <;> simp only [reduceCtorEq, Option.some.injEq] at found
  subst found
  rename_i ds rest noDigits _ same
  have shorter : (digits cs).2.length < cs.length := digits_lt (by rw [same]; exact noDigits)
  simpa [same] using shorter

/-- Reading a fraction does not lengthen a list. -/
theorem scanFraction_le {cs : List Char} {r : Option (List Char) × List Char}
    (found : scanFraction cs = some r) : r.2.length ≤ cs.length := by
  unfold scanFraction at found
  split at found
  · rename_i rest
    have := digits_le rest
    grind
  · grind

/-- Reading a power of ten does not lengthen a list. -/
theorem scanExponent_le {cs : List Char} {r : Option Int × List Char}
    (found : scanExponent cs = some r) : r.2.length ≤ cs.length := by
  unfold scanExponent at found
  grind [digits_le]

/-- Reading a number takes something. -/
theorem scanNumber_lt {cs : List Char} {r : JsonNumber × List Char}
    (found : scanNumber cs = some r) : r.2.length < cs.length := by
  have unsigned : ∀ {negative cs r}, scanUnsigned negative cs = some r →
      r.2.length < cs.length := by
    intro negative cs r found
    simp only [scanUnsigned, Option.bind_eq_bind, Option.bind_eq_some_iff, Option.pure_def,
      Option.some.injEq] at found
    obtain ⟨whole, isWhole, fraction, isFraction, exponent, isExponent, rfl⟩ := found
    have := scanWhole_lt isWhole
    have := scanFraction_le isFraction
    have := scanExponent_le isExponent
    simp only
    omega
  unfold scanNumber at found
  split at found
  · have := unsigned found
    simp only [List.length_cons]
    omega
  · exact unsigned found

/-! ### Tokens -/

/-- The words that stand for values. -/
def scanWord (cs : List Char) : Option (Token × List Char) :=
  match cs with
  | 'n' :: 'u' :: 'l' :: 'l' :: rest => some (.null, rest)
  | 't' :: 'r' :: 'u' :: 'e' :: rest => some (.bool true, rest)
  | 'f' :: 'a' :: 'l' :: 's' :: 'e' :: rest => some (.bool false, rest)
  | _ => none

/-- Whether a character may stand between tokens. -/
def isSpace (c : Char) : Bool :=
  c = ' ' || c = '\n' || c = '\t' || c = '\r'

/-- The token that begins with a character, and what follows it. -/
def tokenAt (c : Char) (rest : List Char) : Option (Token × List Char) :=
  if c = '\x7b' then some (.openObject, rest)
  else if c = '\x7d' then some (.closeObject, rest)
  else if c = '[' then some (.openArray, rest)
  else if c = ']' then some (.closeArray, rest)
  else if c = ',' then some (.comma, rest)
  else if c = ':' then some (.colon, rest)
  else if c = '"' then (scanString rest).map fun s => (s.token, s.rest)
  else if c = '-' || c.isDigit then
    (scanNumber (c :: rest)).map fun (n, after) => (.number n, after)
  else scanWord (c :: rest)

/-- The next token of a text without blanks in front, and what follows it; none at the end. Where no
token begins, the rest is given up. -/
def next? : List Char → Option (Token × List Char)
  | [] => none
  | c :: rest => some ((tokenAt c rest).getD (.malformed, []))

/-- A token takes something. -/
theorem tokenAt_lt {c : Char} {rest : List Char} {r : Token × List Char}
    (found : tokenAt c rest = some r) : r.2.length < (c :: rest).length := by
  unfold tokenAt at found
  have word : ∀ {cs r}, scanWord cs = some r → r.2.length < cs.length := by
    intro cs r found
    unfold scanWord at found
    split at found <;> grind
  have string : ∀ {cs s}, scanString cs = some s → s.rest.length < cs.length := scanString_lt
  have number : ∀ {cs r}, scanNumber cs = some r → r.2.length < cs.length := scanNumber_lt
  repeat' split at found
  all_goals first
    | (simp only [Option.some.injEq] at found; subst found; simp)
    | (simp only [Option.map_eq_some_iff] at found
       obtain ⟨s, isString, rfl⟩ := found
       first
         | (have shorter := string isString; simp only [List.length_cons]; omega)
         | (have shorter := number isString; simpa using shorter))
    | exact word found

/-- The next token takes something. -/
theorem next?_lt {cs : List Char} {r : Token × List Char} (found : next? cs = some r) :
    r.2.length < cs.length := by
  cases cs with
  | nil => simp [next?] at found
  | cons c rest =>
    simp only [next?, Option.some.injEq] at found
    subst found
    cases isToken : tokenAt c rest with
    | none => simp
    | some r => simpa using tokenAt_lt isToken

/-- The tokens of a text. -/
def tokens (cs : List Char) : List Token :=
  match _found : next? (cs.dropWhile isSpace) with
  | none => []
  | some (t, rest) =>
    if t = .malformed then [t] else t :: tokens rest
termination_by cs.length
decreasing_by
  have shorter := next?_lt _found
  have := (List.dropWhile_sublist isSpace (l := cs)).length_le
  simp only at shorter
  omega

end CallGraph.Json
