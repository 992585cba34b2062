import CallGraph.Text

/-!
**Arguments of a command.**

Arguments are read from left to right. One that begins with a dash names a setting, in full after
two dashes or by a letter after one; what follows a setting that takes a value, or is attached to
it, is that value. All others are operands, and so is all that follows two dashes alone. The first
argument that makes no sense ends the reading.

* `Setting` — a setting of a record of options, and what it does to it;
* `Stop` — why the reading may end early;
* `Reading`, `Reading.take` — what has been read, and one argument more;
* `read` — all arguments.
-/

namespace CallGraph.Arguments

/-- Why the reading of arguments may end early. -/
inductive Stop where
  /-- An argument makes no sense, or one is missing. -/
  | usage
  /-- Help was asked for. -/
  | help
  /-- The version was asked for. -/
  | version
  deriving DecidableEq, Repr

/-- What a setting does to the options `σ`. -/
inductive Effect (σ : Type) where
  /-- Takes no value, and may be given once. -/
  | flag (set : σ → σ)
  /-- Takes a value, which may make no sense, and may be given once. -/
  | single (set : σ → String → Option σ)
  /-- Takes a value, any number of times. -/
  | list (add : σ → String → σ)
  /-- Ends the reading. -/
  | stop (why : Stop)

/-- A setting, by its name and perhaps a letter. -/
structure Setting (σ : Type) where
  name : String
  letter : Option Char := none
  effect : Effect σ

namespace Setting

variable {σ : Type}

/-- Whether a setting takes a value. -/
def takesValue (s : Setting σ) : Bool :=
  match s.effect with
  | .single _ | .list _ => true
  | .flag _ | .stop _ => false

/-- The help setting. -/
def help : Setting σ :=
  ⟨"help", some 'h', .stop .help⟩

end Setting

/-- What has been read. -/
structure Reading (σ : Type) where
  options : σ
  operands : List String := []
  /-- The names of the settings that have been given. -/
  given : List String := []
  /-- A setting that still needs its value. -/
  pending : Option (Setting σ) := none
  /-- Whether only operands follow. -/
  onlyOperands : Bool := false

namespace Reading

variable {σ : Type}

/-- Marks a setting as given; it may not have been given before. -/
def mark (r : Reading σ) (s : Setting σ) : Except Stop (Reading σ) :=
  if r.given.contains s.name then .error .usage else .ok { r with given := s.name :: r.given }

/-- Gives a setting without a value. -/
def apply (r : Reading σ) (s : Setting σ) : Except Stop (Reading σ) :=
  match s.effect with
  | .flag set => do
    let r ← r.mark s
    return { r with options := set r.options }
  | .stop why => .error why
  | .single _ | .list _ => .ok { r with pending := some s }

/-- Gives a setting its value. -/
def assign (r : Reading σ) (s : Setting σ) (value : String) : Except Stop (Reading σ) :=
  match s.effect with
  | .flag _ | .stop _ => .error .usage
  | .single set => do
    let r ← r.mark s
    match set r.options value with
    | some options => return { r with options := options, pending := none }
    | none => throw .usage
  | .list add => .ok { r with options := add r.options value, pending := none }

/-- Takes an operand. -/
def operand (r : Reading σ) (text : String) : Reading σ :=
  { r with operands := r.operands ++ [text] }

/-- The name and the value of a long setting, which an equals sign may join. -/
def splitValue (cs : List Char) : String × Option String :=
  match cs.dropWhile (· ≠ '=') with
  | [] => (String.ofList cs, none)
  | _ :: value => (String.ofList (cs.takeWhile (· ≠ '=')), some (String.ofList value))

/-- Takes a setting that is given in full. -/
def long (settings : List (Setting σ)) (r : Reading σ) (cs : List Char) :
    Except Stop (Reading σ) :=
  let (name, value) := splitValue cs
  match settings.find? (·.name == name), value with
  | none, _ => .error .usage
  | some s, none => r.apply s
  | some s, some value => r.assign s value

/-- Takes settings that are given by letters. What follows the letter of a setting that takes a
value is that value; an equals sign may stand in between. -/
def letters (settings : List (Setting σ)) (r : Reading σ) : List Char → Except Stop (Reading σ)
  | [] => .ok r
  | c :: rest =>
    match settings.find? (·.letter == some c) with
    | none => .error .usage
    | some s =>
      if s.takesValue then
        match rest with
        | [] => r.apply s
        | '=' :: value => r.assign s (String.ofList value)
        | value => r.assign s (String.ofList value)
      else do
        let r ← r.apply s
        r.letters settings rest

/-- Takes an argument. -/
def take (settings : List (Setting σ)) (r : Reading σ) (argument : String) :
    Except Stop (Reading σ) :=
  if r.onlyOperands then
    if r.pending.isSome then .error .usage else .ok (r.operand argument)
  else
    match argument.toList, r.pending with
    | ['-', '-'], _ => .ok { r with onlyOperands := true }
    | '-' :: '-' :: cs, none => r.long settings cs
    | '-' :: c :: cs, none => r.letters settings (c :: cs)
    | '-' :: _ :: _, some _ => .error .usage
    | _, some s => r.assign s argument
    | _, none => .ok (r.operand argument)

end Reading

/-- Reads all arguments of a command, starting from some options. -/
def read {σ : Type} (settings : List (Setting σ)) (options : σ) (arguments : List String) :
    Except Stop (Reading σ) := do
  let r ← arguments.foldlM (Reading.take settings) { options := options }
  if r.pending.isSome then throw .usage
  return r

/-! ### Values -/

/-- A natural number between two bounds. A plus sign may stand in front of it, and so may a minus in
front of zero where that is said. -/
def number? (minusZero : Bool) (largest : Nat) (text : String) : Option Nat :=
  let (minus, digits) :=
    match text.toList with
    | '+' :: cs => (false, cs)
    | '-' :: cs => (true, cs)
    | cs => (false, cs)
  if digits.isEmpty || !digits.all Char.isDigit then none
  else
    let n := digits.foldl (fun n c => 10 * n + (c.toNat - '0'.toNat)) 0
    if largest < n || (minus && !(minusZero && n = 0)) then none else some n

/-- The values that commas join. -/
def joined (text : String) : List String :=
  Text.split (· == ',') text

end CallGraph.Arguments
