/-!
**Text: blanks, pieces and parts.**

The handful of text operations the rest of the library shares. All of them are stated on the
characters of a text, so that a proof about one is a proof about a list:

* `isBlank` — the characters that count as blank (Unicode's White_Space property); it covers the
  core library's class (`isBlank_of_isWhitespace`);
* `trim` — a text without blank ends (`trim_trim`);
* `pieces` — the parts between separator characters, empty ones included
  (`pieces_whole`, `pieces_cut`, `pieces_append`, `not_cut_of_mem_pieces`);
* `lines` — the lines of a text (`length_lines`, `lines_join`);
* `occursIn` — whether one text stands somewhere inside another (`occursIn_iff`);
* `dropEnding?` — a text without its ending (`dropEnding?_eq_some_iff`).
-/

namespace CallGraph.Text

/-- Blank characters: the Unicode property White_Space. -/
def isBlank (c : Char) : Bool :=
  let n := c.toNat
  (9 ≤ n && n ≤ 13) || n == 32 || n == 0x85 || n == 0xA0 || n == 0x1680 ||
    (0x2000 ≤ n && n ≤ 0x200A) || n == 0x2028 || n == 0x2029 || n == 0x202F || n == 0x205F ||
    n == 0x3000

/-- Every character the core library calls whitespace is blank. -/
theorem isBlank_of_isWhitespace {c : Char} (white : c.isWhitespace = true) : isBlank c = true := by
  simp only [Char.isWhitespace, Bool.or_eq_true, decide_eq_true_eq] at white
  rcases white with ((rfl | rfl) | rfl) | rfl <;> decide

/-- The characters between the first and the last that are not blank. -/
def trimBlanks (cs : List Char) : List Char :=
  (((cs.dropWhile isBlank).reverse).dropWhile isBlank).reverse

/-- A text without its blank ends. -/
def trim (s : String) : String :=
  String.ofList (trimBlanks s.toList)

theorem dropWhile_dropWhile (cs : List Char) :
    (cs.dropWhile isBlank).dropWhile isBlank = cs.dropWhile isBlank := by
  have first := List.head?_dropWhile_not isBlank cs
  generalize cs.dropWhile isBlank = ds at first
  cases ds with
  | nil => rfl
  | cons c rest => exact List.dropWhile_cons_of_neg (by simpa using first)

theorem trimBlanks_trimBlanks (cs : List Char) : trimBlanks (trimBlanks cs) = trimBlanks cs := by
  -- What is left after the end has been cut off begins as before.
  have start : (trimBlanks cs).dropWhile isBlank = trimBlanks cs := by
    have first := List.head?_dropWhile_not isBlank cs
    have isPrefix : trimBlanks cs <+: cs.dropWhile isBlank := by
      rw [← List.reverse_suffix, trimBlanks, List.reverse_reverse]
      exact List.dropWhile_suffix isBlank
    cases same : trimBlanks cs with
    | nil => rfl
    | cons c rest =>
      obtain ⟨after, whole⟩ := same ▸ isPrefix
      rw [← whole] at first
      exact List.dropWhile_cons_of_neg (by simpa using first)
  rw [trimBlanks, start]
  rw [trimBlanks, List.reverse_reverse, dropWhile_dropWhile]

/-- There is nothing left to trim. -/
theorem trim_trim (s : String) : trim (trim s) = trim s := by
  rw [trim, trim, String.toList_ofList, trimBlanks_trimBlanks]

/-- The parts of a list between the elements that `cut` holds of, empty parts included. -/
def pieces {α : Type} (cut : α → Bool) : List α → List (List α)
  | [] => [[]]
  | a :: rest =>
    if cut a then [] :: pieces cut rest
    else
      match pieces cut rest with
      | [] => [[a]]
      | part :: parts => (a :: part) :: parts

/-- There is always at least one part. -/
theorem pieces_ne_nil {α : Type} (cut : α → Bool) (xs : List α) : pieces cut xs ≠ [] := by
  cases xs with
  | nil => simp [pieces]
  | cons a rest =>
    simp only [pieces]
    split
    · simp
    · split <;> simp

section

variable {α : Type} {cut : α → Bool} {xs rest : List α} {b : α}

/-- A list without a separator is one part. -/
theorem pieces_whole (free : ∀ a ∈ xs, cut a = false) : pieces cut xs = [xs] := by
  induction xs with
  | nil => rfl
  | cons a xs hyp =>
    obtain ⟨here, others⟩ := List.forall_mem_cons.1 free
    rw [pieces, if_neg (Bool.eq_false_iff.1 here), hyp others]

/-- The first part ends at the first separator. -/
theorem pieces_cut (free : ∀ a ∈ xs, cut a = false) (ends : cut b = true) :
    pieces cut (xs ++ b :: rest) = xs :: pieces cut rest := by
  induction xs with
  | nil => rw [List.nil_append, pieces, if_pos ends]
  | cons a xs hyp =>
    obtain ⟨here, others⟩ := List.forall_mem_cons.1 free
    rw [List.cons_append, pieces, if_neg (Bool.eq_false_iff.1 here), hyp others]

end

/-- No part holds a separator. -/
theorem not_cut_of_mem_pieces {α : Type} {cut : α → Bool} {xs part : List α} {a : α}
    (isPart : part ∈ pieces cut xs) (inPart : a ∈ part) : cut a = false := by
  induction xs generalizing part with
  | nil => simp_all [pieces]
  | cons b rest hyp =>
    simp only [pieces] at isPart
    split at isPart
    · rcases List.mem_cons.1 isPart with rfl | tailPart
      · simp at inPart
      · exact hyp tailPart inPart
    · rename_i notCut
      split at isPart
      · simp only [List.mem_singleton] at isPart
        subst isPart
        simp_all
      · rename_i first others same
        rcases List.mem_cons.1 isPart with rfl | tailPart
        · rcases List.mem_cons.1 inPart with rfl | inFirst
          · simpa using notCut
          · exact hyp (same ▸ List.mem_cons_self) inFirst
        · exact hyp (same ▸ List.mem_cons_of_mem _ tailPart) inPart

/-- The parts of a text between the characters that `cut` holds of. -/
def split (cut : Char → Bool) (s : String) : List String :=
  (pieces cut s.toList).map String.ofList

/-- The lines of a text. -/
def lines (text : String) : List String :=
  split (· == '\n') text

/-- A text has one line more than line breaks. -/
theorem length_lines (s : String) : (lines s).length = s.toList.count '\n' + 1 := by
  rw [lines, split, List.length_map]
  induction s.toList with
  | nil => rfl
  | cons c rest hyp =>
    rw [pieces]
    split
    · rename_i isBreak
      rw [List.length_cons, hyp, eq_of_beq isBreak, List.count_cons_self]
    · rename_i noBreak
      rw [List.count_cons_of_ne (by simpa using noBreak), ← hyp]
      split
      · rename_i same
        exact absurd same (pieces_ne_nil _ _)
      · rename_i same
        rw [same]
        rfl

/-- Lines that are each followed by a line break are told apart again. -/
theorem lines_join {parts : List String} (unbroken : ∀ part ∈ parts, '\n' ∉ part.toList) :
    lines (String.join (parts.map (· ++ "\n"))) = parts ++ [""] := by
  induction parts with
  | nil => rfl
  | cons part parts hyp =>
    obtain ⟨first, others⟩ := List.forall_mem_cons.1 unbroken
    have free : ∀ c ∈ part.toList, (c == '\n') = false := fun c here =>
      beq_false_of_ne fun same => first (same ▸ here)
    have after := hyp others
    rw [lines, split] at after ⊢
    rw [List.map_cons, String.join_cons, String.toList_append, String.toList_append,
      List.append_assoc]
    show (pieces (· == '\n') (part.toList ++
      '\n' :: (String.join (parts.map (· ++ "\n"))).toList)).map String.ofList = _
    rw [pieces_cut free rfl, List.map_cons, after, String.ofList_toList]
    rfl

/-- The parts of a text between separator characters, empty parts left out. -/
def words (cut : Char → Bool) (s : String) : List String :=
  (split cut s).filter (· ≠ "")

/-- The last part of a text between separator characters that is not empty, or the whole text if
all are. -/
def lastWord (cut : Char → Bool) (s : String) : String :=
  (words cut s).getLast?.getD s

/-- Whether one list stands somewhere inside another. -/
def occursIn (part : List Char) : List Char → Bool
  | [] => part.isEmpty
  | c :: rest => part.isPrefixOf (c :: rest) || occursIn part rest

/-- One list stands inside another exactly if it can be completed to it on both sides. -/
theorem occursIn_iff {part cs : List Char} :
    occursIn part cs = true ↔ ∃ before after, cs = before ++ part ++ after := by
  induction cs with
  | nil =>
    simp only [occursIn, List.isEmpty_iff]
    constructor
    · rintro rfl
      exact ⟨[], [], rfl⟩
    · rintro ⟨before, after, same⟩
      have := List.append_eq_nil_iff.1 same.symm
      exact (List.append_eq_nil_iff.1 this.1).2
  | cons c rest hyp =>
    simp only [occursIn, Bool.or_eq_true, List.isPrefixOf_iff_prefix, hyp]
    constructor
    · rintro (⟨after, same⟩ | ⟨before, after, same⟩)
      · exact ⟨[], after, by simpa using same.symm⟩
      · exact ⟨c :: before, after, by simp [same]⟩
    · rintro ⟨before, after, same⟩
      cases before with
      | nil => exact Or.inl ⟨after, by simpa using same.symm⟩
      | cons b before =>
        refine Or.inr ⟨before, after, ?_⟩
        simp only [List.cons_append, List.cons.injEq] at same
        simpa using same.2

/-- Whether `part` occurs in `s`. -/
def contains (s part : String) : Bool :=
  occursIn part.toList s.toList

/-- Whether `s` begins with `start`. -/
def startsWith (s start : String) : Bool :=
  start.toList.isPrefixOf s.toList

/-- What stands before `ending` in `s`, if `s` ends in it. -/
def dropEnding? (s ending : String) : Option String :=
  if ending.toList.isSuffixOf s.toList then
    some (String.ofList (s.toList.take (s.toList.length - ending.toList.length)))
  else none

/-- What is left of a text without its ending makes the text with it. -/
theorem dropEnding?_eq_some_iff {s ending rest : String} :
    dropEnding? s ending = some rest ↔ s = rest ++ ending := by
  rw [dropEnding?]
  constructor
  · intro cut
    split at cut
    · rename_i ends
      obtain ⟨front, whole⟩ := List.isSuffixOf_iff_suffix.1 ends
      cases cut
      rw [← String.toList_inj, String.toList_append, String.toList_ofList, ← whole, List.length_append,
        Nat.add_sub_cancel, List.take_left]
    · cases cut
  · rintro rfl
    have ends : ending.toList.isSuffixOf (rest ++ ending).toList = true := by
      rw [List.isSuffixOf_iff_suffix, String.toList_append]
      exact List.suffix_append _ _
    rw [if_pos ends, String.toList_append, List.length_append, Nat.add_sub_cancel, List.take_left,
      String.ofList_toList]

/-- A text with every occurrence of one character replaced by another. -/
def replaceChar (s : String) (old new : Char) : String :=
  String.ofList (s.toList.map fun c => if c = old then new else c)

/-- A text with each character written as `code` says. -/
def encode (code : Char → List Char) (s : String) : String :=
  String.ofList (s.toList.flatMap code)

/-- Whether the first character is an ASCII capital. -/
def startsUpper (s : String) : Bool :=
  s.toList.head?.any fun c => 'A' ≤ c && c ≤ 'Z'

/-- Whether the first character is an ASCII small letter. -/
def startsLower (s : String) : Bool :=
  s.toList.head?.any fun c => 'a' ≤ c && c ≤ 'z'

end CallGraph.Text
