import CallGraph.Json.Decode
import Mathlib.Data.List.Basic

/-!
**A written value is read back.**

The theory of `Json.pretty` and of its reader. What a value is written as, blanks apart, are its
words; a reader cuts the text into exactly these words, and puts them together to the value again.

* `Json.words` — the tokens a value is written as;
* `Spells` — a text of which the tokens are known, whatever follows it;
* `closes_quote`, `spells_natural` — strings and numbers, over all texts and all machine words;
* `spells_prettyAt` — a value spells its words;
* `build_words` — words are put together to the value that they are the words of;
* `ofText_of_spells`, `readText_pretty` — a text that spells a value is read as that value, and so is
  a written one.
-/

namespace CallGraph.Json

/-! ### Tokens one by one -/

theorem tokens_nil : tokens [] = [] := by
  rw [tokens]
  rfl

/-- Blanks between tokens do not count. -/
theorem tokens_space {c : Char} {cs : List Char} (space : isSpace c = true) :
    tokens (c :: cs) = tokens cs := by
  rw [tokens, tokens, List.dropWhile_cons_of_pos space]

/-- The first token of a text that begins with one. -/
theorem tokens_cons {c : Char} {cs after : List Char} {t : Token} (solid : isSpace c = false)
    (first : tokenAt c cs = some (t, after)) (sound : t ≠ .malformed) :
    tokens (c :: cs) = t :: tokens after := by
  have kept : (c :: cs).dropWhile isSpace = c :: cs :=
    List.dropWhile_cons_of_neg (by rw [solid]; exact Bool.false_ne_true)
  have next : next? ((c :: cs).dropWhile isSpace) = some (t, after) := by
    rw [kept, next?, first]
    rfl
  rw [tokens]
  split
  · rename_i none
    rw [next] at none
    cases none
  · rename_i t' after' found
    rw [next] at found
    cases found
    rw [if_neg sound]

/-- What may follow a number: nothing that the number could go on with. -/
def Apart (rest : List Char) : Prop :=
  ∀ c ∈ rest.head?, c.isDigit = false ∧ c ≠ '.' ∧ c ≠ 'e' ∧ c ≠ 'E'

/-- **A text spells some tokens** if it is cut into them, unless a number at its end goes on. -/
def Spells (text : List Char) (ts : List Token) : Prop :=
  ∀ rest, Apart rest → tokens (text ++ rest) = ts ++ tokens rest

/-- A text that is cut into some tokens whatever comes after it. -/
def Closes (text : List Char) (ts : List Token) : Prop :=
  ∀ rest, tokens (text ++ rest) = ts ++ tokens rest

section

variable {text more : List Char} {ts us : List Token}

theorem Closes.spells (closes : Closes text ts) : Spells text ts :=
  fun rest _ => closes rest

/-- What closes may be followed by anything. -/
theorem Closes.append_spells (first : Closes text ts) (second : Spells more us) :
    Spells (text ++ more) (ts ++ us) := by
  intro rest apart
  rw [List.append_assoc, first, second rest apart, List.append_assoc]

theorem Closes.append (first : Closes text ts) (second : Closes more us) :
    Closes (text ++ more) (ts ++ us) := by
  intro rest
  rw [List.append_assoc, first, second, List.append_assoc]

/-- What begins with no part of a number ends the number before it. -/
theorem Spells.append_closes (first : Spells text ts) (second : Closes more us)
    (apart : ∀ rest, Apart (more ++ rest)) : Closes (text ++ more) (ts ++ us) := by
  intro rest
  rw [List.append_assoc, first _ (apart rest), second, List.append_assoc]

/-- Blanks spell nothing. -/
theorem closes_blank (blanks : ∀ c ∈ text, isSpace c = true) : Closes text [] := by
  intro rest
  induction text with
  | nil => rfl
  | cons c cs hyp =>
    rw [List.cons_append, tokens_space (blanks c List.mem_cons_self)]
    exact hyp fun b here => blanks b (List.mem_cons_of_mem c here)

/-- A text that begins a token and ends with it. -/
theorem closes_token {c : Char} {cs : List Char} {t : Token} (solid : isSpace c = false)
    (first : ∀ rest, tokenAt c (cs ++ rest) = some (t, rest)) (sound : t ≠ .malformed) :
    Closes (c :: cs) [t] :=
  fun rest => tokens_cons solid (first rest) sound

end

/-! ### Strings -/

section

variable {rest : List Char}

/-- A character that needs no escape. -/
theorem scanString_plain {c : Char} (noQuote : c ≠ '"') (noSlash : c ≠ '\\')
    (printed : ¬ c.toNat < 32) : scanString (c :: rest) = (scanString rest).map (.push c) := by
  rw [scanString.eq_def]
  dsimp only
  rw [if_neg noQuote, if_neg noSlash, if_neg printed]

/-- An escape of one letter. -/
theorem scanString_letter {e c : Char} (simple : simpleEscape? e = some c) (noCode : e ≠ 'u') :
    scanString ('\\' :: e :: rest) = (scanString rest).map (.push c) := by
  rw [scanString.eq_def]
  simp [simple, noCode]

/-- An escape of a character by its number. -/
theorem scanString_code {a b c d : Char} {code : Nat} (value : hexCode? a b c d = some code)
    (noHigh : isHighHalf code = false) (noLow : isLowHalf code = false) :
    scanString ('\\' :: 'u' :: a :: b :: c :: d :: rest) =
      (scanString rest).map (.push (Char.ofNat code)) := by
  rw [scanString.eq_def]
  simp [value, noHigh, noLow]

/-- The numbers that are written out, and what they are written as. -/
theorem escapeCode_control : ∀ n : Fin 32,
    escapeCode (Char.ofNat n) =
      ['\\', 'u', '0', '0', Nat.digitChar (n.val / 16), Nat.digitChar (n.val % 16)] ∧
    hexCode? '0' '0' (Nat.digitChar (n.val / 16)) (Nat.digitChar (n.val % 16)) = some n.val := by
  decide +kernel

/-- The characters with an escape of one letter, and the letter. -/
def letters : List (Char × Char) :=
  [('"', '"'), ('\\', '\\'), ('\n', 'n'), ('\r', 'r'), ('\t', 't'), ('\x08', 'b'), ('\x0c', 'f')]

theorem escapeChar_letter : ∀ p ∈ letters,
    escapeChar p.1 = ['\\', p.2] ∧ simpleEscape? p.2 = some p.1 ∧ p.2 ≠ 'u' := by
  decide

theorem escapeChar_other {c : Char} (other : c ∉ letters.map (·.1)) :
    escapeChar c = (if c.toNat < 32 then escapeCode c else [c]) ∧ c ≠ '"' ∧ c ≠ '\\' := by
  simp only [letters, List.map_cons, List.map_nil, List.mem_cons, List.not_mem_nil, not_or] at other
  obtain ⟨noQuote, noSlash, noFeed, noReturn, noTab, noBack, noForm, _⟩ := other
  refine ⟨?_, noQuote, noSlash⟩
  rw [escapeChar, if_neg noQuote, if_neg noSlash, if_neg noFeed, if_neg noReturn, if_neg noTab,
    if_neg noBack, if_neg noForm]

/-- An escaped character is read back. -/
theorem scanString_escapeChar (c : Char) :
    scanString (escapeChar c ++ rest) = (scanString rest).map (.push c) := by
  by_cases letter : c ∈ letters.map (·.1)
  · obtain ⟨p, listed, rfl⟩ := List.mem_map.1 letter
    obtain ⟨written, simple, noCode⟩ := escapeChar_letter p listed
    rw [written]
    exact scanString_letter simple noCode
  · obtain ⟨written, noQuote, noSlash⟩ := escapeChar_other letter
    rw [written]
    split
    · rename_i control
      obtain ⟨digits, value⟩ := escapeCode_control ⟨c.toNat, control⟩
      rw [Char.ofNat_toNat] at digits
      have noHigh : isHighHalf c.toNat = false := by
        simp only [isHighHalf, Bool.and_eq_false_iff, decide_eq_false_iff_not]
        omega
      have noLow : isLowHalf c.toNat = false := by
        simp only [isLowHalf, Bool.and_eq_false_iff, decide_eq_false_iff_not]
        omega
      rw [digits]
      show scanString ('\\' :: 'u' :: '0' :: '0' :: _ :: _ :: rest) = _
      rw [scanString_code value noHigh noLow, Char.ofNat_toNat]
    · rename_i printed
      exact scanString_plain noQuote noSlash printed

/-- **What stands between the quotes is read back**, whatever characters it has. -/
theorem scanString_escaped (cs : List Char) :
    scanString (cs.flatMap escapeChar ++ '"' :: rest) = some ⟨cs, true, rest⟩ := by
  induction cs with
  | nil =>
    show scanString ('"' :: rest) = _
    rw [scanString.eq_def]
    rfl
  | cons c cs hyp =>
    rw [List.flatMap_cons, List.append_assoc, scanString_escapeChar, hyp]
    rfl

end

/-- A string spells itself. -/
theorem closes_quote (s : String) : Closes (quote s).toList [.string s] := by
  have written : (quote s).toList = '"' :: (s.toList.flatMap escapeChar ++ ['"']) := by
    simp [quote, Text.encode]
  rw [written]
  refine closes_token (by decide) (fun rest => ?_) Token.noConfusion
  show (scanString _).map _ = _
  rw [List.append_assoc, List.singleton_append, scanString_escaped]
  simp [ScannedString.token]

/-! ### Natural numbers -/

/-- A number that is not zero is written without a zero in front. -/
theorem head_toDigits_ne {n : Nat} (positive : 0 < n) : (Nat.toDigits 10 n).head? ≠ some '0' := by
  induction n using Nat.strongRecOn with
  | ind n hyp =>
    by_cases small : n < 10
    · rw [Nat.toDigits_of_lt_base small]
      have all : ∀ k : Fin 10, 0 < k.val → [Nat.digitChar k.val].head? ≠ some '0' := by decide
      exact all ⟨n, small⟩ positive
    · have split := Nat.toDigits_of_base_le (b := 10) (by omega) (Nat.le_of_not_lt small)
      rw [split, List.head?_append_of_ne_nil _ Nat.toDigits_ne_nil]
      exact hyp (n / 10) (by omega) (by omega)

theorem isDigit_of_mem_repr {n : Nat} {c : Char} (here : c ∈ n.repr.toList) : c.isDigit = true := by
  rw [Nat.toList_repr] at here
  exact Nat.isDigit_of_mem_toDigits (by decide) (by decide) here

/-- The digits of a text end where something else begins. -/
theorem digits_append {ds rest : List Char} (all : ∀ c ∈ ds, c.isDigit = true)
    (apart : Apart rest) : digits (ds ++ rest) = (ds, rest) := by
  have stop : rest.takeWhile Char.isDigit = [] ∧ rest.dropWhile Char.isDigit = rest := by
    cases rest with
    | nil => exact ⟨rfl, rfl⟩
    | cons c cs =>
      have other : c.isDigit = false := (apart c rfl).1
      simp [other]
  rw [digits, List.takeWhile_append_of_pos all, List.dropWhile_append_of_pos all, stop.1, stop.2,
    List.append_nil]

theorem scanWhole_repr {n : Nat} {rest : List Char} (apart : Apart rest) :
    scanWhole (n.repr.toList ++ rest) = some (n.repr.toList, rest) := by
  rw [scanWhole, digits_append (fun _ => isDigit_of_mem_repr) apart]
  split
  · rename_i same
    rw [Nat.toList_repr] at same
    exact absurd (Prod.ext_iff.1 same).1 Nat.toDigits_ne_nil
  · rename_i second others after same
    have leading : n.repr.toList = '0' :: second :: others := (Prod.ext_iff.1 same).1
    rw [Nat.toList_repr] at leading
    by_cases zero : n = 0
    · rw [zero, Nat.toDigits_zero] at leading
      cases leading
    · exact absurd (congrArg List.head? leading) (head_toDigits_ne (Nat.pos_of_ne_zero zero))
  · rename_i same
    cases same
    rfl

theorem scanFraction_apart {rest : List Char} (apart : Apart rest) :
    scanFraction rest = some (none, rest) := by
  unfold scanFraction
  split
  · exact absurd rfl (apart '.' rfl).2.1
  · rfl

theorem scanExponent_apart {rest : List Char} (apart : Apart rest) :
    scanExponent rest = some (none, rest) := by
  cases rest with
  | nil => rfl
  | cons c cs =>
    obtain ⟨_, _, small, large⟩ := apart c rfl
    simp [scanExponent, small, large]

theorem decimal_repr (n : Nat) : decimal n.repr.toList = n := by
  have same : decimal n.repr.toList = Nat.ofDigitChars 10 n.repr.toList 0 :=
    Nat.ofDigitChars_eq_foldl.symm
  rw [same, Nat.toList_repr, Nat.ofDigitChars_ten_toDigits]

/-- **A machine word is read back.** -/
theorem scanUnsigned_repr {n : Nat} {rest : List Char} (fits : n ≤ Word.largest 64)
    (apart : Apart rest) :
    scanUnsigned false (n.repr.toList ++ rest) = some (.natural n, rest) := by
  have number : classify false n.repr.toList [] none false = .natural n := by
    have small : decimal n.repr.toList ≤ Word.largest 64 := (decimal_repr n).symm ▸ fits
    rw [classify, if_pos (by rw [decide_eq_true small]; rfl), decimal_repr]
  rw [scanUnsigned, scanWhole_repr apart]
  simp only [Option.bind_eq_bind, Option.bind_some, scanFraction_apart apart,
    scanExponent_apart apart]
  exact congrArg (fun k => some (k, rest)) number

/-- A natural number spells itself. -/
theorem spells_natural {n : Nat} (fits : n ≤ Word.largest 64) :
    Spells n.repr.toList [.number (.natural n)] := by
  intro rest apart
  obtain ⟨c, cs, written⟩ : ∃ c cs, n.repr.toList = c :: cs :=
    List.exists_cons_of_ne_nil (by rw [Nat.toList_repr]; exact Nat.toDigits_ne_nil)
  have digit : c.isDigit = true := isDigit_of_mem_repr (written ▸ List.mem_cons_self)
  have other : ∀ d : Char, d.isDigit = false → c ≠ d := by
    rintro d no rfl
    rw [digit] at no
    cases no
  have solid : isSpace c = false := by
    simp [isSpace, other ' ' rfl, other '\n' rfl, other '\t' rfl, other '\r' rfl]
  have scanned : scanNumber (c :: (cs ++ rest)) = some (.natural n, rest) := by
    unfold scanNumber
    split
    · rename_i same
      exact absurd (List.cons.inj same).1 (other '-' rfl)
    · rw [← List.cons_append, ← written]
      exact scanUnsigned_repr fits apart
  have first : tokenAt c (cs ++ rest) = some (.number (.natural n), rest) := by
    simp [tokenAt, other '\x7b' rfl, other '\x7d' rfl, other '[' rfl, other ']' rfl, other ',' rfl,
      other ':' rfl, other '"' rfl, digit, scanned]
  rw [written, List.cons_append, tokens_cons solid first Token.noConfusion]
  rfl

/-! ### Whole values -/

mutual

/-- **The words of a value**: the tokens that it is written as. -/
def words : Json → List Token
  | null => [.null]
  | bool b => [.bool b]
  | number n => [.number n]
  | string s => [.string s]
  | array items => [.openArray] ++ [Token.comma].intercalate (itemWords items) ++ [.closeArray]
  | object members =>
    [.openObject] ++ [Token.comma].intercalate (memberWords members) ++ [.closeObject]

/-- The words of each item. -/
def itemWords : List Json → List (List Token)
  | [] => []
  | j :: rest => j.words :: itemWords rest

/-- The words of each member. -/
def memberWords : List (String × Json) → List (List Token)
  | [] => []
  | (key, j) :: rest => ([.string key] ++ [.colon] ++ j.words) :: memberWords rest

end

mutual

/-- A value of which the numbers are natural and fit into a machine word. -/
def Plain : Json → Prop
  | null | bool _ | string _ => True
  | number (.natural n) => n ≤ Word.largest 64
  | number _ => False
  | array items => AllPlain items
  | object members => AllMembersPlain members

/-- Each item is such a value. -/
def AllPlain : List Json → Prop
  | [] => True
  | j :: rest => j.Plain ∧ AllPlain rest

/-- The value of each member is such a value. -/
def AllMembersPlain : List (String × Json) → Prop
  | [] => True
  | (_, j) :: rest => j.Plain ∧ AllMembersPlain rest

end

/-- Texts between separators that spell a comma. -/
theorem spells_intercalate {sep : List Char} (comma : Closes sep [.comma])
    (apart : ∀ rest, Apart (sep ++ rest)) {texts : List (List Char)} {ts : List (List Token)}
    (each : List.Forall₂ Spells texts ts) :
    Spells (sep.intercalate texts) ([Token.comma].intercalate ts) := by
  induction each with
  | nil => exact fun _ _ => rfl
  | @cons text t texts ts first others hyp =>
    cases others with
    | nil =>
      rw [List.intercalate_singleton, List.intercalate_singleton]
      exact first
    | cons second others =>
      rw [List.intercalate_cons_cons, List.intercalate_cons_cons]
      exact (first.append_closes comma apart).append_spells hyp

theorem apart_cons {c : Char} {rest : List Char}
    (other : c.isDigit = false ∧ c ≠ '.' ∧ c ≠ 'e' ∧ c ≠ 'E') : Apart (c :: rest) := by
  intro d here
  cases here
  exact other

theorem toList_newLine (depth : Nat) :
    (newLine depth).toList = '\n' :: List.replicate (2 * depth) ' ' := by
  simp [newLine]

/-- A line break spells nothing. -/
theorem closes_newLine (depth : Nat) : Closes (newLine depth).toList [] := by
  refine closes_blank fun c here => ?_
  rw [toList_newLine, List.mem_cons] at here
  rcases here with rfl | blank
  · rfl
  · rw [(List.mem_replicate.1 blank).2]
    rfl

theorem apart_newLine (depth : Nat) (rest : List Char) : Apart ((newLine depth).toList ++ rest) := by
  rw [toList_newLine]
  exact apart_cons (by decide)

/-- A character that is a token by itself. -/
theorem closes_symbol (c : Char) {t : Token} (solid : isSpace c = false)
    (alone : ∀ rest, tokenAt c rest = some (t, rest)) (sound : t ≠ .malformed) : Closes [c] [t] :=
  closes_token solid alone sound

/-- A comma and a line break are a comma. -/
theorem closes_commaLine (depth : Nat) : Closes ("," ++ newLine depth).toList [.comma] := by
  rw [String.toList_append]
  exact (closes_symbol ',' (by decide) (fun _ => rfl) Token.noConfusion).append (closes_newLine depth)

theorem apart_commaLine (depth : Nat) (rest : List Char) :
    Apart (("," ++ newLine depth).toList ++ rest) := by
  rw [String.toList_append]
  exact apart_cons (by decide)

theorem closes_null : Closes "null".toList [.null] :=
  (closes_token (by decide) (fun _ => rfl) Token.noConfusion : Closes ['n', 'u', 'l', 'l'] _)

theorem closes_bool (b : Bool) : Closes (if b then "true" else "false").toList [.bool b] := by
  cases b with
  | false =>
    exact (closes_token (by decide) (fun _ => rfl) Token.noConfusion :
      Closes ['f', 'a', 'l', 's', 'e'] _)
  | true =>
    exact (closes_token (by decide) (fun _ => rfl) Token.noConfusion :
      Closes ['t', 'r', 'u', 'e'] _)

/-- Entries between brackets, each on a line of its own. -/
theorem closes_bracketed {left right : Char} {opened closed : Token} (depth : Nat)
    (opens : Closes [left] [opened]) (ends : Closes [right] [closed]) {texts : List String}
    {ts : List (List Token)} (each : List.Forall₂ Spells (texts.map String.toList) ts) :
    Closes ([left] ++ (newLine (depth + 1)).toList ++
        (("," ++ newLine (depth + 1)).intercalate texts).toList ++ (newLine depth).toList ++ [right])
      ([opened] ++ [Token.comma].intercalate ts ++ [closed]) := by
  have inside := spells_intercalate (closes_commaLine (depth + 1)) (apart_commaLine (depth + 1)) each
  rw [← String.toList_intercalate] at inside
  have first := (opens.append (closes_newLine (depth + 1))).append_spells inside
  have last := (first.append_closes (closes_newLine depth) (apart_newLine depth)).append ends
  simpa using last

mutual

/-- **A value is cut into its words.** -/
theorem spells_prettyAt (depth : Nat) : ∀ j : Json, j.Plain → Spells (j.prettyAt depth).toList j.words
  | null, _ => by
    rw [prettyAt]
    exact closes_null.spells
  | bool b, _ => by
    rw [prettyAt]
    exact (closes_bool b).spells
  | number (.natural n), fits => spells_natural (by simpa [Plain] using fits)
  | number .other, no | number .tooLarge, no => absurd no (by simp [Plain])
  | string s, _ => by
    rw [prettyAt]
    exact (closes_quote s).spells
  | array [], _ => by
    rw [prettyAt]
    exact ((closes_symbol '[' (by decide) (fun _ => rfl) Token.noConfusion).append
      (closes_symbol ']' (by decide) (fun _ => rfl) Token.noConfusion)).spells
  | array (j :: items), plain => by
    have each := spells_prettyItems (depth + 1) (j :: items) (by simpa [Plain] using plain)
    have whole := closes_bracketed depth
      (closes_symbol '[' (by decide) (fun _ => rfl) Token.noConfusion)
      (closes_symbol ']' (by decide) (fun _ => rfl) Token.noConfusion) each
    rw [prettyAt, words]
    simpa using whole.spells
  | object [], _ => by
    rw [prettyAt]
    exact ((closes_symbol '\x7b' (by decide) (fun _ => rfl) Token.noConfusion).append
      (closes_symbol '\x7d' (by decide) (fun _ => rfl) Token.noConfusion)).spells
  | object (m :: members), plain => by
    have each := spells_prettyMembers (depth + 1) (m :: members) (by simpa [Plain] using plain)
    have whole := closes_bracketed depth
      (closes_symbol '\x7b' (by decide) (fun _ => rfl) Token.noConfusion)
      (closes_symbol '\x7d' (by decide) (fun _ => rfl) Token.noConfusion) each
    rw [prettyAt, words]
    simpa using whole.spells

/-- Each item is cut into its words. -/
theorem spells_prettyItems (depth : Nat) : ∀ items : List Json, AllPlain items →
    List.Forall₂ Spells ((prettyItems depth items).map String.toList) (itemWords items)
  | [], _ => .nil
  | j :: rest, plain => by
    rw [prettyItems, itemWords, List.map_cons]
    rw [AllPlain] at plain
    exact .cons (spells_prettyAt depth j plain.1) (spells_prettyItems depth rest plain.2)

/-- Each member is cut into its words. -/
theorem spells_prettyMembers (depth : Nat) : ∀ members : List (String × Json),
    AllMembersPlain members →
    List.Forall₂ Spells ((prettyMembers depth members).map String.toList) (memberWords members)
  | [], _ => .nil
  | (key, j) :: rest, plain => by
    rw [prettyMembers, memberWords, List.map_cons]
    rw [AllMembersPlain] at plain
    refine .cons ?_ (spells_prettyMembers depth rest plain.2)
    have space : Closes [' '] [] := closes_blank (List.forall_mem_singleton.2 rfl)
    have colon : Closes ": ".toList [.colon] :=
      (closes_symbol ':' (by decide) (fun _ => rfl) Token.noConfusion).append space
    rw [String.toList_append, String.toList_append]
    exact ((closes_quote key).append colon).append_spells (spells_prettyAt depth j plain.1)

end

/-! ### Words put together -/

/-- How reading goes on when a value is finished: the value is put where it belongs. -/
def resume (f : Fragment) (stack : List Frame) (rest : List Token) : Fragment × List Token :=
  match put f stack with
  | .goOn stack expected => build stack expected rest
  | .done f => (f, rest)
  | .wrong => (giveUp none stack, rest)

/-- Whether a value may stand at the place that is being read. -/
def Takes : List Frame → Prop
  | .object _ :: _ => False
  | _ => True

/-- A value of one token. -/
theorem build_single {stack : List Frame} {t : Token} {f : Fragment} {rest : List Token}
    (takes : Takes stack) (starts : startValue stack t = put f stack) :
    build stack .value (t :: rest) = resume f stack rest := by
  rw [build]
  show (match startValue stack t with
    | .goOn stack expected => build stack expected rest
    | .done f => (f, rest)
    | .wrong => (giveUp none stack, t :: rest)) = _
  rw [starts, resume]
  match stack, takes with
  | [], _ => rfl
  | .array _ :: _, _ => rfl
  | .member _ _ :: _, _ => rfl

/-- A closing token finishes what it closes. -/
theorem build_close {stack outer : List Frame} {expected : Expected} {t : Token} {f : Fragment}
    {rest : List Token} (takes : Takes outer) (closes : advance stack expected t = put f outer) :
    build stack expected (t :: rest) = resume f outer rest := by
  rw [build, closes, resume]
  match outer, takes with
  | [], _ => rfl
  | .array _ :: _, _ => rfl
  | .member _ _ :: _, _ => rfl

/-- Where an array may end a value is read as anywhere else. -/
theorem build_itemOrEnd (j : Json) (stack : List Frame) (rest : List Token) :
    build stack .itemOrEnd (j.words ++ rest) = build stack .value (j.words ++ rest) := by
  cases j <;> rfl

/-- The words of items begin with those of the first. -/
theorem exists_intercalate_itemWords (j : Json) (items : List Json) : ∃ others,
    [Token.comma].intercalate (itemWords (j :: items)) = j.words ++ others := by
  cases items with
  | nil => exact ⟨[], by rw [itemWords, itemWords, List.intercalate_singleton, List.append_nil]⟩
  | cons k items =>
    rw [itemWords, itemWords, List.intercalate_cons_cons, List.append_assoc]
    exact ⟨_, rfl⟩

theorem exists_intercalate_memberWords (key : String) (j : Json) (members : List (String × Json)) :
    ∃ others, [Token.comma].intercalate (memberWords ((key, j) :: members)) =
      .string key :: .colon :: others := by
  cases members with
  | nil =>
    rw [memberWords, memberWords, List.intercalate_singleton]
    exact ⟨_, rfl⟩
  | cons m members =>
    obtain ⟨other, k⟩ := m
    rw [memberWords, memberWords, List.intercalate_cons_cons, List.append_assoc]
    exact ⟨_, rfl⟩

mutual

/-- **The words of a value are put together to the value.** -/
theorem build_words : ∀ (j : Json) (stack : List Frame) (rest : List Token), Takes stack →
    build stack .value (j.words ++ rest) = resume (.ofJson j) stack rest
  | null, _, _, takes => build_single takes rfl
  | bool _, _, _, takes => build_single takes rfl
  | number _, _, _, takes => build_single takes rfl
  | string _, _, _, takes => build_single takes rfl
  | array [], _, _, takes => build_close (t := .closeArray) takes rfl
  | array (j :: items), stack, rest, takes => by
    have inside := build_items (j :: items) (List.cons_ne_nil _ _) [] stack rest takes
    obtain ⟨others, first⟩ := exists_intercalate_itemWords j items
    rw [first, List.append_assoc] at inside
    rw [words, first, List.append_assoc, List.append_assoc, List.append_assoc]
    show build (.array [] :: stack) .itemOrEnd (j.words ++ (others ++ .closeArray :: rest)) = _
    rw [build_itemOrEnd]
    exact inside
  | object [], _, _, takes => build_close (t := .closeObject) takes rfl
  | object ((key, j) :: members), stack, rest, takes => by
    have inside := build_members ((key, j) :: members) (List.cons_ne_nil _ _) [] stack rest takes
    obtain ⟨others, first⟩ := exists_intercalate_memberWords key j members
    rw [first] at inside
    rw [words, first, List.append_assoc, List.append_assoc]
    exact inside

/-- The items of an array, up to its end. -/
theorem build_items : ∀ (items : List Json), items ≠ [] → ∀ (before : List Fragment)
    (stack : List Frame) (rest : List Token), Takes stack →
    build (.array before :: stack) .value
        ([Token.comma].intercalate (itemWords items) ++ (.closeArray :: rest)) =
      resume (.array (before.reverse ++ Fragment.ofItems items) true) stack rest
  | [], entries, _, _, _, _ => absurd rfl entries
  | [j], _, before, stack, rest, takes => by
    rw [itemWords, itemWords, List.intercalate_singleton,
      build_words j (.array before :: stack) _ trivial]
    show build (.array (.ofJson j :: before) :: stack) .commaOrEnd (.closeArray :: rest) = _
    rw [build_close takes rfl, List.reverse_cons]
    rfl
  | j :: k :: items, _, before, stack, rest, takes => by
    have others := build_items (k :: items) (List.cons_ne_nil _ _) (.ofJson j :: before) stack rest
      takes
    rw [List.reverse_cons, List.append_assoc] at others
    rw [itemWords, itemWords, List.intercalate_cons_cons, List.append_assoc, List.append_assoc,
      build_words j (.array before :: stack) _ trivial]
    exact others

/-- The members of an object, up to its end. -/
theorem build_members : ∀ (members : List (String × Json)), members ≠ [] →
    ∀ (before : List (Option String × Fragment)) (stack : List Frame) (rest : List Token),
    Takes stack → build (.object before :: stack) .key
        ([Token.comma].intercalate (memberWords members) ++ (.closeObject :: rest)) =
      resume (.object (before.reverse ++ Fragment.ofMembers members) true) stack rest
  | [], entries, _, _, _, _ => absurd rfl entries
  | [(key, j)], _, before, stack, rest, takes => by
    rw [memberWords, memberWords, List.intercalate_singleton]
    show build (.member before (some key) :: stack) .value (j.words ++ .closeObject :: rest) = _
    rw [build_words j (.member before (some key) :: stack) _ trivial]
    show build (.object ((some key, .ofJson j) :: before) :: stack) .commaOrEnd
      (.closeObject :: rest) = _
    rw [build_close takes rfl, List.reverse_cons]
    rfl
  | (key, j) :: (other, k) :: members, _, before, stack, rest, takes => by
    have others := build_members ((other, k) :: members) (List.cons_ne_nil _ _)
      ((some key, .ofJson j) :: before) stack rest takes
    rw [List.reverse_cons, List.append_assoc] at others
    rw [memberWords, memberWords, List.intercalate_cons_cons, List.append_assoc, List.append_assoc]
    show build (.member before (some key) :: stack) .value (j.words ++ _) = _
    rw [build_words j (.member before (some key) :: stack) _ trivial]
    exact others

end

/-- **A text that spells a value is read as that value**, and ends with it. -/
theorem ofText_of_spells {text : String} {j : Json} (spells : Spells text.toList j.words) :
    Fragment.ofText text = (Fragment.ofJson j, true) := by
  have cut := spells [] fun _ here => by cases here
  rw [List.append_nil, tokens_nil] at cut
  have put : build [] .value (j.words ++ []) = (.ofJson j, []) := build_words j [] [] trivial
  rw [Fragment.ofText, cut, put]
  rfl

theorem readText_of_spells {α : Type} (d : Decoder α) {text : String} {j : Json}
    (spells : Spells text.toList j.words) : readText d text = readJson d j := by
  rw [readText, ofText_of_spells spells, readJson]
  exact bind_pure (d (Fragment.ofJson j))

/-- Reading a written value is reading the value. -/
theorem readText_pretty {α : Type} (d : Decoder α) {j : Json} (plain : j.Plain) :
    readText d j.pretty = readJson d j :=
  readText_of_spells d (spells_prettyAt 0 j plain)

end CallGraph.Json
