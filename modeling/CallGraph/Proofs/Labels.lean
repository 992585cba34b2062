import CallGraph.Diagram.Dot
import CallGraph.Diagram.Mermaid
import CallGraph.Proofs.JsonText

/-!
**Labels and their escapes.**

A label stands between quotes on one line, so what would end the quotes or the line has to be escaped.
Graphviz labels escape the line break, the quote and the backslash that begins an escape: every text
can be read back. Mermaid labels escape the quote and the angle brackets, by an entity that begins with
a `#`, but neither the `#` nor the line break. What can be read back is the text with its entities
decoded, and that tells two texts apart unless one has an entity where the other has its character.

* `Dot.unescape?_escapeLabel`, `Dot.cutLabel?_escapeLabel` — a Graphviz label is read back, and ends
  where its quotes do;
* `Mermaid.decode_induction` — induction along the entities of a text;
* `Mermaid.escape_eq_escape_iff`, `Mermaid.decoded_eq_self_iff` — which texts are written alike, and
  which are read back as they are;
* `Mermaid.label_eq_label_iff` — what the label of a node tells;
* `Dot.escapeLabel_eq`, `Mermaid.escape_eq` — escaping characters one after the other.
-/

namespace CallGraph

namespace Text

/-- A text in which every occurrence of a character is replaced by some text. -/
def substitute (s : String) (old : Char) (new : String) : String :=
  encode (fun c => if c = old then new.toList else [c]) s

theorem encode_encode (first second : Char → List Char) (s : String) :
    encode second (encode first s) = encode (fun c => (first c).flatMap second) s := by
  rw [encode, encode, encode, String.toList_ofList, List.flatMap_assoc]

section

variable {α : Type} [DecidableEq α] {a : α} {xs ys rest more : List α}

/-- What stands in front of the first separator is known, and what stands behind it. -/
theorem append_cons_inj (free : a ∉ xs) (free' : a ∉ ys) :
    xs ++ a :: rest = ys ++ a :: more ↔ xs = ys ∧ rest = more := by
  refine ⟨fun same => ?_, fun same => same.1 ▸ same.2 ▸ rfl⟩
  have front := congrArg (pieces (· == a)) same
  rw [pieces_cut (fun b here => beq_false_of_ne (ne_of_mem_of_not_mem here free)) (beq_self_eq_true a),
    pieces_cut (fun b here => beq_false_of_ne (ne_of_mem_of_not_mem here free')) (beq_self_eq_true a)]
    at front
  obtain rfl := (List.cons.inj front).1
  exact ⟨rfl, (List.cons.inj (List.append_cancel_left same)).2⟩

/-- What stands behind the last separator is known, and what stands in front of it. -/
theorem append_cons_inj_right (free : a ∉ rest) (free' : a ∉ more) :
    xs ++ a :: rest = ys ++ a :: more ↔ xs = ys ∧ rest = more := by
  rw [← List.reverse_inj, List.reverse_append, List.reverse_append, List.reverse_cons,
    List.reverse_cons, List.append_assoc, List.append_assoc, List.singleton_append,
    List.singleton_append, append_cons_inj (by simpa using free) (by simpa using free'),
    List.reverse_inj, List.reverse_inj, and_comm]

end

end Text

namespace Diagram

/-- No character but a digit stands in a number. -/
theorem notMem_repr {c : Char} (other : c.isDigit = false) (n : Nat) : c ∉ n.repr.toList := by
  intro here
  rw [Json.isDigit_of_mem_repr here] at other
  cases other

theorem repr_inj {i j : Nat} : i.repr = j.repr ↔ i = j := by
  refine ⟨fun same => ?_, fun same => same ▸ rfl⟩
  rw [← Json.decimal_repr i, same, Json.decimal_repr]

/-! ### Graphviz labels -/

namespace Dot

/-- The character that a character behind a backslash stands for. -/
def meaning? (c : Char) : Option Char :=
  if c = '\\' then some '\\' else if c = '"' then some '"' else if c = 'n' then some '\n' else none

/-- A label without its escapes; none if a backslash escapes nothing. -/
def unescape? : List Char → Option (List Char)
  | [] => some []
  | ['\\'] => none
  | '\\' :: d :: rest => (meaning? d).bind fun c => (unescape? rest).map (c :: ·)
  | c :: rest => (unescape? rest).map (c :: ·)

/-- What stands in front of the first quote outside an escape, and what stands behind it. -/
def cutLabel? : List Char → Option (List Char × List Char)
  | [] => none
  | ['\\'] => none
  | '"' :: rest => some ([], rest)
  | '\\' :: d :: rest => (cutLabel? rest).map fun cut => ('\\' :: d :: cut.1, cut.2)
  | c :: rest => (cutLabel? rest).map fun cut => (c :: cut.1, cut.2)

theorem unescape?_cons {c : Char} (notBackslash : c ≠ '\\') (rest : List Char) :
    unescape? (c :: rest) = (unescape? rest).map (c :: ·) := by
  rw [unescape?] <;> simp [notBackslash]

theorem cutLabel?_cons {c : Char} (notBackslash : c ≠ '\\') (notQuote : c ≠ '"')
    (rest : List Char) :
    cutLabel? (c :: rest) = (cutLabel? rest).map fun cut => (c :: cut.1, cut.2) := by
  rw [cutLabel?] <;> simp [notBackslash, notQuote]

/-- A character is escaped by a backslash, or stands for itself and ends nothing. -/
theorem escapeChar_cases (c : Char) :
    (∃ d, escapeChar c = ['\\', d] ∧ meaning? d = some c) ∨
      escapeChar c = [c] ∧ c ≠ '\\' ∧ c ≠ '"' ∧ c ≠ '\n' := by
  by_cases backslash : c = '\\'
  · exact Or.inl ⟨'\\', by rw [backslash]; rfl, by rw [backslash]; rfl⟩
  by_cases quote : c = '"'
  · exact Or.inl ⟨'"', by rw [quote]; rfl, by rw [quote]; rfl⟩
  by_cases lineBreak : c = '\n'
  · exact Or.inl ⟨'n', by rw [lineBreak]; rfl, by rw [lineBreak]; rfl⟩
  · refine Or.inr ⟨?_, backslash, quote, lineBreak⟩
    rw [escapeChar, if_neg backslash, if_neg quote, if_neg lineBreak]

theorem unescape?_escapeChar (c : Char) (rest : List Char) :
    unescape? (escapeChar c ++ rest) = (unescape? rest).map (c :: ·) := by
  obtain ⟨d, escaped, means⟩ | ⟨itself, notBackslash, _⟩ := escapeChar_cases c
  · rw [escaped, List.cons_append, List.singleton_append, unescape?, means, Option.bind_some]
  · rw [itself, List.singleton_append, unescape?_cons notBackslash]

theorem cutLabel?_escapeChar (c : Char) (rest : List Char) :
    cutLabel? (escapeChar c ++ rest) =
      (cutLabel? rest).map fun cut => (escapeChar c ++ cut.1, cut.2) := by
  obtain ⟨d, escaped, _⟩ | ⟨itself, notBackslash, notQuote, _⟩ := escapeChar_cases c
  · rw [escaped, List.cons_append, List.singleton_append, cutLabel?]
    rfl
  · rw [itself, List.singleton_append, cutLabel?_cons notBackslash notQuote]
    rfl

theorem notMem_escapeChar (c : Char) : '\n' ∉ escapeChar c := by
  intro here
  obtain ⟨d, escaped, means⟩ | ⟨itself, _, _, notBreak⟩ := escapeChar_cases c
  · rw [escaped, List.mem_cons, List.mem_singleton] at here
    rcases here with same | rfl
    · exact absurd same (by decide)
    · cases means
  · rw [itself, List.mem_singleton] at here
    exact notBreak here.symm

theorem toList_escapeLabel (t : String) :
    (escapeLabel t).toList = t.toList.flatMap escapeChar :=
  String.toList_ofList

/-- **A label has no line break**, whatever it is made from. -/
theorem notMem_escapeLabel (t : String) : '\n' ∉ (escapeLabel t).toList := by
  rw [toList_escapeLabel, List.mem_flatMap]
  rintro ⟨c, _, here⟩
  exact notMem_escapeChar c here

/-- **A label is read back.** -/
theorem unescape?_escapeLabel (t : String) :
    unescape? (escapeLabel t).toList = some t.toList := by
  rw [toList_escapeLabel]
  induction t.toList with
  | nil => rfl
  | cons c cs hyp => rw [List.flatMap_cons, unescape?_escapeChar, hyp, Option.map_some]

/-- The first quote behind a label is the first in the text behind it. -/
theorem cutLabel?_escapeLabel (t : String) (rest : List Char) :
    cutLabel? ((escapeLabel t).toList ++ rest) =
      (cutLabel? rest).map fun cut => ((escapeLabel t).toList ++ cut.1, cut.2) := by
  rw [toList_escapeLabel]
  induction t.toList with
  | nil => simp
  | cons c cs hyp =>
    rw [List.flatMap_cons, List.append_assoc, cutLabel?_escapeChar, hyp, Option.map_map]
    simp only [List.append_assoc]
    rfl

/-- **There is no quote in a label but in an escape.** -/
theorem cutLabel?_escapeLabel_eq_none (t : String) : cutLabel? (escapeLabel t).toList = none := by
  have whole := cutLabel?_escapeLabel t []
  rwa [List.append_nil] at whole

/-- The escapes are made one after the other: the backslash has to come first, since the others write
one. -/
theorem escapeLabel_eq (t : String) : escapeLabel t =
    Text.substitute (Text.substitute (Text.substitute t '\\' "\\\\") '"' "\\\"") '\n' "\\n" := by
  simp only [Text.substitute, Text.encode_encode]
  rw [escapeLabel]
  congr 1
  funext c
  by_cases backslash : c = '\\'
  · rw [backslash]
    decide
  by_cases quote : c = '"'
  · rw [quote]
    decide
  by_cases lineBreak : c = '\n'
  · rw [lineBreak]
    decide
  · simp [escapeChar, backslash, quote, lineBreak]

end Dot

/-! ### Mermaid labels -/

namespace Mermaid

/-- The characters that are written as an entity. -/
def markup : List Char := ['"', '<', '>']

/-- A text with its entities decoded. -/
def decode : List Char → List Char
  | [] => []
  | '#' :: 'q' :: 'u' :: 'o' :: 't' :: ';' :: rest => '"' :: decode rest
  | '#' :: 'l' :: 't' :: ';' :: rest => '<' :: decode rest
  | '#' :: 'g' :: 't' :: ';' :: rest => '>' :: decode rest
  | c :: rest => c :: decode rest

/-- What a text says once its entities are decoded. -/
def decoded (s : String) : String :=
  String.ofList (decode s.toList)

theorem escapeChar_of_notMem {c : Char} (plain : c ∉ markup) : escapeChar c = [c] := by
  simp only [markup, List.mem_cons, List.not_mem_nil, or_false, not_or] at plain
  obtain ⟨notQuote, notLess, notMore⟩ := plain
  rw [escapeChar, if_neg notQuote, if_neg notLess, if_neg notMore]

/-- An entity is a `#` and a word that has neither a `#` nor anything to escape. -/
theorem exists_word {d : Char} (isMarkup : d ∈ markup) :
    ∃ word, escapeChar d = '#' :: word ∧ ∀ c ∈ word, c ≠ '#' ∧ c ∉ markup := by
  simp only [markup, List.mem_cons, List.not_mem_nil, or_false] at isMarkup
  obtain rfl | rfl | rfl := isMarkup
  · exact ⟨['q', 'u', 'o', 't', ';'], rfl, by simp [markup]⟩
  · exact ⟨['l', 't', ';'], rfl, by simp [markup]⟩
  · exact ⟨['g', 't', ';'], rfl, by simp [markup]⟩

theorem flatMap_escapeChar_of_plain {word : List Char} (plain : ∀ c ∈ word, c ∉ markup) :
    word.flatMap escapeChar = word := by
  rw [List.flatMap_congr fun c here => escapeChar_of_notMem (plain c here), List.flatMap_singleton']

/-- An entity is escaped as it is. -/
theorem flatMap_escapeChar_entity {d : Char} (isMarkup : d ∈ markup) :
    (escapeChar d).flatMap escapeChar = escapeChar d := by
  obtain ⟨word, entity, plain⟩ := exists_word isMarkup
  rw [entity, List.flatMap_cons, flatMap_escapeChar_of_plain fun c here => (plain c here).2]
  rfl

theorem decode_entity {d : Char} (isMarkup : d ∈ markup) (rest : List Char) :
    decode (escapeChar d ++ rest) = d :: decode rest := by
  simp only [markup, List.mem_cons, List.not_mem_nil, or_false] at isMarkup
  obtain rfl | rfl | rfl := isMarkup <;> rfl

theorem decode_cons {c : Char} {rest : List Char}
    (notEntity : ∀ d ∈ markup, ¬ escapeChar d <+: c :: rest) :
    decode (c :: rest) = c :: decode rest := by
  have differs : ∀ d ∈ markup, ∀ more, c :: rest ≠ escapeChar d ++ more := fun d isMarkup more same =>
    notEntity d isMarkup ⟨more, same.symm⟩
  rw [decode]
  · rintro more rfl rfl
    exact differs '"' (by decide) more rfl
  · rintro more rfl rfl
    exact differs '<' (by decide) more rfl
  · rintro more rfl rfl
    exact differs '>' (by decide) more rfl

/-- **Induction along the entities of a text.** -/
theorem decode_induction {holds : List Char → Prop} (nil : holds [])
    (entity : ∀ d rest, d ∈ markup → holds rest → holds (escapeChar d ++ rest))
    (char : ∀ c rest, (∀ d ∈ markup, ¬ escapeChar d <+: c :: rest) → holds rest → holds (c :: rest))
    (s : List Char) : holds s := by
  induction s using decode.induct with
  | case1 => exact nil
  | case2 rest hyp => exact entity '"' rest (by decide) hyp
  | case3 rest hyp => exact entity '<' rest (by decide) hyp
  | case4 rest hyp => exact entity '>' rest (by decide) hyp
  | case5 c rest notQuote notLess notMore hyp =>
    refine char c rest (fun d isMarkup opens => ?_) hyp
    obtain ⟨more, same⟩ := opens
    simp only [markup, List.mem_cons, List.not_mem_nil, or_false] at isMarkup
    obtain rfl | rfl | rfl := isMarkup <;> cases same
    · exact notQuote more rfl rfl
    · exact notLess more rfl rfl
    · exact notMore more rfl rfl

/-- Escaping a text makes no entity but for what it escapes. -/
theorem prefix_of_prefix_flatMap {word rest : List Char}
    (plain : ∀ c ∈ word, c ≠ '#' ∧ c ∉ markup) (opens : word <+: rest.flatMap escapeChar) :
    word <+: rest := by
  induction rest generalizing word with
  | nil => exact opens
  | cons c rest hyp =>
    cases word with
    | nil => exact List.nil_prefix
    | cons w word =>
      obtain ⟨⟨notHash, _⟩, others⟩ := List.forall_mem_cons.1 plain
      rw [List.flatMap_cons] at opens
      by_cases isMarkup : c ∈ markup
      · obtain ⟨entity, same, _⟩ := exists_word isMarkup
        rw [same] at opens
        exact absurd (List.cons_prefix_cons.1 opens).1 notHash
      · rw [escapeChar_of_notMem isMarkup] at opens
        obtain ⟨same, behind⟩ := List.cons_prefix_cons.1 opens
        exact List.cons_prefix_cons.2 ⟨same, hyp others behind⟩

/-- What is decoded from an escaped text is decoded from the text. -/
theorem decode_flatMap_escapeChar (s : List Char) : decode (s.flatMap escapeChar) = decode s := by
  induction s using decode_induction with
  | nil => rfl
  | entity d rest isMarkup hyp =>
    rw [List.flatMap_append, flatMap_escapeChar_entity isMarkup, decode_entity isMarkup,
      decode_entity isMarkup, hyp]
  | char c rest notEntity hyp =>
    rw [decode_cons notEntity, List.flatMap_cons]
    by_cases isMarkup : c ∈ markup
    · rw [decode_entity isMarkup, hyp]
    · rw [escapeChar_of_notMem isMarkup, List.singleton_append, decode_cons, hyp]
      -- An entity that begins here would be one of the text: behind its `#` nothing has been escaped.
      intro d opening opens
      obtain ⟨word, entity, plain⟩ := exists_word opening
      have original := notEntity d opening
      rw [entity] at opens original
      obtain ⟨hash, behind⟩ := List.cons_prefix_cons.1 opens
      exact original (List.cons_prefix_cons.2 ⟨hash, prefix_of_prefix_flatMap plain behind⟩)

/-- What is escaped from a decoded text is escaped from the text. -/
theorem flatMap_escapeChar_decode (s : List Char) :
    (decode s).flatMap escapeChar = s.flatMap escapeChar := by
  induction s using decode_induction with
  | nil => rfl
  | entity d rest isMarkup hyp =>
    rw [decode_entity isMarkup, List.flatMap_append, flatMap_escapeChar_entity isMarkup,
      List.flatMap_cons, hyp]
  | char c rest notEntity hyp => rw [decode_cons notEntity, List.flatMap_cons, List.flatMap_cons, hyp]

theorem toList_escape (t : String) : (escape t).toList = t.toList.flatMap escapeChar :=
  String.toList_ofList

/-- **Two texts are written alike exactly if they are read alike.** -/
theorem escape_eq_escape_iff {s t : String} : escape s = escape t ↔ decoded s = decoded t := by
  have decodes : ∀ s : String, decode (escape s).toList = decode s.toList := fun s => by
    rw [toList_escape, decode_flatMap_escapeChar]
  have escapes : ∀ s : String, (decode s.toList).flatMap escapeChar = (escape s).toList := fun s => by
    rw [toList_escape, flatMap_escapeChar_decode]
  rw [decoded, decoded, String.ofList_inj]
  constructor
  · intro same
    rw [← decodes s, same, decodes t]
  · intro same
    rw [← String.toList_inj, ← escapes s, same, escapes t]

theorem length_decode_le (s : List Char) : (decode s).length ≤ s.length := by
  induction s using decode_induction with
  | nil => exact Nat.le_refl 0
  | entity d rest isMarkup hyp =>
    obtain ⟨word, entity, _⟩ := exists_word isMarkup
    rw [decode_entity isMarkup, entity, List.length_cons, List.length_append, List.length_cons]
    omega
  | char c rest notEntity hyp =>
    rw [decode_cons notEntity, List.length_cons, List.length_cons]
    omega

/-- Only a text with an entity is changed. -/
theorem decode_eq_self_iff {s : List Char} :
    decode s = s ↔ ∀ d ∈ markup, Text.occursIn (escapeChar d) s = false := by
  induction s using decode_induction with
  | nil =>
    refine ⟨fun _ d isMarkup => ?_, fun _ => rfl⟩
    obtain ⟨word, entity, _⟩ := exists_word isMarkup
    rw [entity]
    rfl
  | entity d rest isMarkup hyp =>
    refine iff_of_false (fun same => ?_) fun free => ?_
    · obtain ⟨c, more, longer⟩ : ∃ c more, escapeChar d = '#' :: c :: more := by
        simp only [markup, List.mem_cons, List.not_mem_nil, or_false] at isMarkup
        obtain rfl | rfl | rfl := isMarkup <;> exact ⟨_, _, rfl⟩
      have lengths := congrArg List.length same
      have shorter := length_decode_le rest
      rw [decode_entity isMarkup, longer] at lengths
      simp only [List.length_append, List.length_cons] at lengths
      omega
    · have occurs : Text.occursIn (escapeChar d) (escapeChar d ++ rest) = true :=
        Text.occursIn_iff.2 ⟨[], rest, rfl⟩
      rw [free d isMarkup] at occurs
      cases occurs
  | char c rest notEntity hyp =>
    rw [decode_cons notEntity, List.cons.injEq, and_iff_right rfl, hyp]
    refine forall₂_congr fun d isMarkup => ?_
    have notHere : (escapeChar d).isPrefixOf (c :: rest) = false := by
      rw [Bool.eq_false_iff, ne_eq, List.isPrefixOf_iff_prefix]
      exact notEntity d isMarkup
    rw [Text.occursIn, notHere, Bool.false_or]

/-- **What is read back is the text itself** exactly if it has no entity. -/
theorem decoded_eq_self_iff {s : String} :
    decoded s = s ↔ ∀ entity ∈ ["#quot;", "#lt;", "#gt;"], Text.contains s entity = false := by
  rw [← String.toList_inj, decoded, String.toList_ofList, decode_eq_self_iff]
  simp only [markup, Text.contains, List.forall_mem_cons, List.not_mem_nil, false_imp_iff,
    forall_const]
  rfl

/-! ### What a label tells -/

theorem notMem_escape {c : Char} (isMarkup : c ∈ markup) (t : String) : c ∉ (escape t).toList := by
  rw [toList_escape, List.mem_flatMap]
  rintro ⟨d, _, here⟩
  by_cases escaped : d ∈ markup
  · obtain ⟨word, entity, plain⟩ := exists_word escaped
    rw [entity, List.mem_cons] at here
    rcases here with rfl | here
    · exact absurd isMarkup (by decide)
    · exact (plain c here).2 isMarkup
  · rw [escapeChar_of_notMem escaped, List.mem_singleton] at here
    exact escaped (here ▸ isMarkup)

/-- A label has no quote, whatever it is made from. -/
theorem notMem_label (n : Node) : '"' ∉ (label n).toList := by
  have isMarkup : '"' ∈ markup := by decide
  rw [label]
  simp only [String.toList_append, List.mem_append, not_or]
  exact ⟨⟨⟨⟨notMem_escape isMarkup _, by decide⟩, notMem_escape isMarkup _⟩, by decide⟩,
    notMem_repr rfl _⟩

/-- A line break is not escaped. -/
theorem count_escape (t : String) : (escape t).toList.count '\n' = t.toList.count '\n' := by
  have one : ∀ c, (escapeChar c).count '\n' = [c].count '\n' := by
    intro c
    by_cases isMarkup : c ∈ markup
    · simp only [markup, List.mem_cons, List.not_mem_nil, or_false] at isMarkup
      obtain rfl | rfl | rfl := isMarkup <;> decide
    · rw [escapeChar_of_notMem isMarkup]
  rw [toList_escape, List.count_flatMap]
  induction t.toList with
  | nil => rfl
  | cons c cs hyp => rw [List.map_cons, List.sum_cons, hyp, Function.comp, one, ← List.count_append,
      List.singleton_append]

/-- The line breaks of a label are those of the name and of the file. -/
theorem count_label (n : Node) : (label n).toList.count '\n' =
    n.name.toList.count '\n' + (placeText n).1.toList.count '\n' := by
  have noBreak : (placeText n).2.repr.toList.count '\n' = 0 := List.count_eq_zero.2 (notMem_repr rfl _)
  rw [label]
  simp only [String.toList_append, List.count_append, count_escape, noBreak]
  rfl

/-- **The label of a node tells its name, file and line**, once their entities are decoded. -/
theorem label_eq_label_iff {n m : Node} : label n = label m ↔
    decoded n.name = decoded m.name ∧ decoded (placeText n).1 = decoded (placeText m).1 ∧
      (placeText n).2 = (placeText m).2 := by
  have toList_label : ∀ n, (label n).toList = (escape n.name).toList ++ '<' :: ("br/>".toList ++
      ((escape (placeText n).1).toList ++ ':' :: (placeText n).2.repr.toList)) := by
    intro n
    rw [label]
    simp only [String.toList_append, List.append_assoc]
    rfl
  have isMarkup : '<' ∈ markup := by decide
  rw [← String.toList_inj, toList_label, toList_label,
    Text.append_cons_inj (notMem_escape isMarkup _) (notMem_escape isMarkup _), List.append_right_inj,
    Text.append_cons_inj_right (notMem_repr rfl _) (notMem_repr rfl _), String.toList_inj,
    String.toList_inj, String.toList_inj, escape_eq_escape_iff, escape_eq_escape_iff, repr_inj]

/-- The escapes are made one after the other, in any order: none writes what another escapes. -/
theorem escape_eq (t : String) : escape t =
    Text.substitute (Text.substitute (Text.substitute t '"' "#quot;") '<' "#lt;") '>' "#gt;" := by
  simp only [Text.substitute, Text.encode_encode]
  rw [escape]
  congr 1
  funext c
  by_cases isMarkup : c ∈ markup
  · simp only [markup, List.mem_cons, List.not_mem_nil, or_false] at isMarkup
    obtain rfl | rfl | rfl := isMarkup <;> decide
  · rw [escapeChar_of_notMem isMarkup]
    simp only [markup, List.mem_cons, List.not_mem_nil, or_false, not_or] at isMarkup
    obtain ⟨notQuote, notLess, notMore⟩ := isMarkup
    simp only [notQuote, notLess, notMore, if_false, List.flatMap_singleton]

end Mermaid

end Diagram

end CallGraph
