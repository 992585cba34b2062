import CallGraph.Proofs.Rendering
import Mathlib.Data.List.TakeWhile

/-!
**Reading a drawing back.**

A drawing is a text of lines. It can be read back if each of its lines holds one whole element and the
label of the element is known from it.

* `Entry`, `entries` — what has a label, in the order of the lines;
* `Dot.readLine?`, `Mermaid.readLine?` — the label on a line, and what stands in front of it;
* `dot_reads_back` — **the lines of a Graphviz drawing are its elements, and each label is recovered**;
* `mermaid_reads_back` — the elements of a flowchart, and what their labels tell. A line break in a name
  is one in the text, so the lines are the elements exactly if no name, file or title has one.
-/

namespace CallGraph

namespace Text

/-- Lines with a break between any two and one at the end. -/
theorem intercalate_append_break {parts : List String} (nonempty : parts ≠ []) :
    "\n".intercalate parts ++ "\n" = String.join (parts.map (· ++ "\n")) := by
  induction parts with
  | nil => exact absurd rfl nonempty
  | cons part rest hyp =>
    cases rest with
    | nil =>
      rw [String.intercalate_singleton, List.map_singleton, String.join_cons,
        String.join_nil, String.append_empty]
    | cons next rest =>
      rw [String.intercalate_cons_cons, String.append_assoc, hyp (List.cons_ne_nil _ _)]
      exact String.join_cons.symm

/-- The line breaks of some texts that are each followed by one. -/
theorem count_join_break (parts : List String) :
    (String.join (parts.map (· ++ "\n"))).toList.count '\n' =
      (parts.map (·.toList.count '\n')).sum + parts.length := by
  induction parts with
  | nil => rfl
  | cons part rest hyp =>
    rw [List.map_cons, String.join_cons, String.toList_append, String.toList_append, List.count_append,
      List.count_append, hyp, List.map_cons, List.sum_cons, List.length_cons]
    show part.toList.count '\n' + 1 + _ = _
    omega

/-- Lines are told apart exactly if none has a break inside. -/
theorem lines_intercalate_iff {parts : List String} (nonempty : parts ≠ []) :
    lines ("\n".intercalate parts ++ "\n") = parts ++ [""] ↔
      (parts.map (·.toList.count '\n')).sum = 0 := by
  rw [intercalate_append_break nonempty]
  constructor
  · intro same
    have lengths := congrArg List.length same
    rw [length_lines, count_join_break, List.length_append, List.length_singleton] at lengths
    omega
  · intro noBreaks
    refine lines_join fun part here => List.count_eq_zero.1 ?_
    exact List.sum_eq_zero_iff_forall_eq_nat.1 noBreaks _ (List.mem_map_of_mem here)

end Text

namespace Diagram

open CallGraph.Flow CallGraph.Graph

/-! ### Parts and their entries -/

/-- What has a label: a node, or a group with its title. -/
inductive Entry where
  | node (number : Nat) (n : Node)
  | group (number : Nat) (title : String)

mutual

/-- The entries of a part, in the order in which their lines come up. -/
def Part.entries : Part → List Entry
  | .node i n => [.node i n]
  | .group i title parts => .group i title :: entries parts

/-- The entries of some parts, in the order in which their lines come up. -/
def entries : List Part → List Entry
  | [] => []
  | p :: rest => p.entries ++ entries rest

end

/-- The line breaks in what the label of an entry is made from. -/
def Entry.breaks : Entry → Nat
  | .node _ n => n.name.toList.count '\n' + (placeText n).1.toList.count '\n'
  | .group _ title => title.toList.count '\n'

/-- What stands in front of the first quote of a line, but for the blanks at its start, and what stands
behind it. -/
def quoted? (line : String) : Option (String × List Char) :=
  match line.toList.dropWhile (· != '"') with
  | [] => none
  | _ :: behind =>
    some (String.ofList ((line.toList.takeWhile (· != '"')).dropWhile (· == ' ')), behind)

theorem quoted?_eq_none {line : String} (free : '"' ∉ line.toList) : quoted? line = none := by
  have all : line.toList.dropWhile (· != '"') = [] := by
    rw [List.dropWhile_eq_nil_iff]
    exact fun c here => bne_iff_ne.2 (ne_of_mem_of_not_mem here free)
  rw [quoted?, all]

theorem quoted?_eq_some {line front : String} (blanks : Nat) {behind : List Char}
    (shape : line.toList = List.replicate blanks ' ' ++ front.toList ++ '"' :: behind)
    (free : '"' ∉ front.toList) (first : front.toList.head? ≠ some ' ') :
    quoted? line = some (front, behind) := by
  have unquoted : ∀ c ∈ List.replicate blanks ' ' ++ front.toList, (c != '"') = true := by
    intro c here
    rcases List.mem_append.1 here with blank | here
    · rw [List.eq_of_mem_replicate blank]
      rfl
    · exact bne_iff_ne.2 (ne_of_mem_of_not_mem here free)
  have start : (List.replicate blanks ' ' ++ front.toList).dropWhile (· == ' ') = front.toList := by
    rw [dropWhile_blanks]
    cases same : front.toList with
    | nil => rfl
    | cons c rest =>
      rw [same] at first
      exact List.dropWhile_cons_of_neg fun blank => first (congrArg some (eq_of_beq blank))
  rw [quoted?, shape, List.dropWhile_append_of_pos unquoted, List.takeWhile_append_of_pos unquoted]
  show some (String.ofList ((_ ++ []).dropWhile (· == ' ')), behind) = _
  rw [List.append_nil, start, String.ofList_toList]

/-! ### Graphviz -/

namespace Dot

/-- The label on a line, without its escapes, and what stands in front of the attribute. -/
def readLine? (line : String) : Option (String × String) :=
  (quoted? line).bind fun parts =>
    (Text.dropEnding? parts.1 "label=").bind fun owner =>
      (cutLabel? parts.2).bind fun cut =>
        (unescape? cut.1).map fun text => (owner, String.ofList text)

/-- What is read of an entry: whose label it is, and what it says. -/
def sign : Entry → String × String
  | .node i n => ("N" ++ i.repr ++ " [", label n)
  | .group _ title => ("", title)

theorem notMem_pad {c : Char} (notBlank : c ≠ ' ') (k : Nat) : c ∉ (pad k).toList := by
  rw [pad, String.toList_ofList]
  exact fun here => notBlank (List.eq_of_mem_replicate here)

theorem readLine?_eq_none {line : String} (free : '"' ∉ line.toList) : readLine? line = none := by
  rw [readLine?, quoted?_eq_none free]
  rfl

/-- **The label on a line is read.** -/
theorem readLine?_eq_some {line owner text : String} (blanks : Nat) (behind : List Char)
    (shape : line.toList = List.replicate blanks ' ' ++ (owner ++ "label=").toList ++
      '"' :: ((escapeLabel text).toList ++ '"' :: behind))
    (free : '"' ∉ owner.toList) (first : (owner ++ "label=").toList.head? ≠ some ' ') :
    readLine? line = some (owner, text) := by
  have unquoted : '"' ∉ (owner ++ "label=").toList := by
    rw [String.toList_append, List.mem_append, not_or]
    exact ⟨free, by decide⟩
  have cut : cutLabel? ((escapeLabel text).toList ++ '"' :: behind) =
      some ((escapeLabel text).toList, behind) := by
    rw [cutLabel?_escapeLabel, cutLabel?, Option.map_some, List.append_nil]
  rw [readLine?, quoted?_eq_some blanks shape unquoted first, Option.bind_some,
    Text.dropEnding?_eq_some_iff.2 rfl, Option.bind_some, cut, Option.bind_some,
    unescape?_escapeLabel, Option.map_some, String.ofList_toList]

theorem readLine?_node (k i : Nat) (n : Node) :
    readLine? (pad k ++ "N" ++ i.repr ++ " [label=\"" ++ escapeLabel (label n) ++ "\", style=\"" ++
      (look n).2 ++ "\", fillcolor=\"" ++ (look n).1 ++ "\"];") = some (sign (.node i n)) := by
  -- The quotes of the label stand inside two of the fixed texts.
  have opens : " [label=\"".toList = " [".toList ++ "label=".toList ++ ['"'] := by decide
  have closes : "\", style=\"".toList = '"' :: ", style=\"".toList := by decide
  refine readLine?_eq_some (4 * k) (", style=\"" ++ (look n).2 ++ "\", fillcolor=\"" ++ (look n).1 ++
    "\"];").toList ?_ ?_ ?_
  · simp only [pad, String.toList_append, String.toList_ofList, opens, closes, List.append_assoc,
      List.cons_append, List.nil_append]
  · simp only [String.toList_append, List.mem_append, not_or, and_assoc]
    exact ⟨by decide, notMem_repr rfl _, by decide⟩
  · simp only [String.toList_append, List.append_assoc]
    show some 'N' ≠ some ' '
    decide

theorem readLine?_title (k : Nat) (title : String) :
    readLine? (pad (k + 1) ++ "label=\"" ++ escapeLabel title ++ "\";") = some ("", title) := by
  have opens : "label=\"".toList = "".toList ++ "label=".toList ++ ['"'] := by decide
  have closes : "\";".toList = ['"', ';'] := by decide
  refine readLine?_eq_some (4 * (k + 1)) [';'] ?_ ?_ ?_
  · simp only [pad, String.toList_append, String.toList_ofList, opens, closes, List.append_assoc,
      List.cons_append, List.nil_append]
  · decide
  · decide

/-- **Each entry of some parts is read from its line**, and nothing from the other lines. -/
theorem filterMap_readLine?_partsLines (parts : List Part) (k : Nat) :
    (partsLines k parts).filterMap readLine? = (entries parts).map sign := by
  induction parts using parts_induction generalizing k with
  | nil => rfl
  | node i n rest hyp =>
    show (_ :: partsLines k rest).filterMap readLine? = sign (.node i n) :: (entries rest).map sign
    rw [List.filterMap_cons_some (readLine?_node k i n), hyp]
  | group i title inner rest within after =>
    have opens : readLine? (pad k ++ "subgraph cluster_" ++ i.repr ++ " \x7b") = none := by
      refine readLine?_eq_none ?_
      simp only [String.toList_append, List.mem_append, not_or, and_assoc]
      exact ⟨notMem_pad (by decide) k, by decide, notMem_repr rfl _, by decide⟩
    have closes : readLine? (pad k ++ "\x7d") = none := by
      refine readLine?_eq_none ?_
      rw [String.toList_append, List.mem_append, not_or]
      exact ⟨notMem_pad (by decide) k, by decide⟩
    show (_ :: _ :: partsLines (k + 1) inner ++ [_] ++ partsLines k rest).filterMap readLine? =
      sign (.group i title) :: (entries inner ++ entries rest).map sign
    rw [List.filterMap_append, List.filterMap_append, List.filterMap_cons_none opens,
      List.filterMap_cons_some (readLine?_title k title), within, after,
      List.filterMap_cons_none closes, List.filterMap_nil, List.append_nil, List.map_append]
    rfl

/-- A node has one line, a group three. -/
theorem length_partsLines (parts : List Part) (k : Nat) :
    (partsLines k parts).length = (declared parts).length + 3 * (opened parts).length := by
  induction parts using parts_induction generalizing k with
  | nil => rfl
  | node i n rest hyp =>
    show (partsLines k rest).length + 1 = ((declared rest).length + 1) + 3 * (opened rest).length
    rw [hyp]
    omega
  | group i title inner rest within after =>
    show (_ :: _ :: partsLines (k + 1) inner ++ [_] ++ partsLines k rest).length =
      (declared inner ++ declared rest).length + 3 * (i :: opened inner ++ opened rest).length
    simp only [List.length_append, List.length_cons, List.length_nil, within, after]
    omega

theorem notMem_look (n : Node) : '\n' ∉ (look n).1.toList ∧ '\n' ∉ (look n).2.toList := by
  rw [look]
  split
  · decide
  · split <;> decide

/-- **No line of a part is broken.** -/
theorem notMem_partsLines (parts : List Part) (k : Nat) :
    ∀ line ∈ partsLines k parts, '\n' ∉ line.toList := by
  induction parts using parts_induction generalizing k with
  | nil => exact fun _ here => absurd here List.not_mem_nil
  | node i n rest hyp =>
    refine List.forall_mem_cons.2 ⟨?_, hyp k⟩
    obtain ⟨colour, style⟩ := notMem_look n
    simp only [String.toList_append, List.mem_append, not_or, and_assoc]
    exact ⟨notMem_pad (by decide) k, by decide, notMem_repr rfl _, by decide, notMem_escapeLabel _,
      by decide, style, by decide, colour, by decide⟩
  | group i title inner rest within after =>
    have first : '\n' ∉ (pad k ++ "subgraph cluster_" ++ i.repr ++ " \x7b").toList := by
      simp only [String.toList_append, List.mem_append, not_or, and_assoc]
      exact ⟨notMem_pad (by decide) k, by decide, notMem_repr rfl _, by decide⟩
    have second : '\n' ∉ (pad (k + 1) ++ "label=\"" ++ escapeLabel title ++ "\";").toList := by
      simp only [String.toList_append, List.mem_append, not_or, and_assoc]
      exact ⟨notMem_pad (by decide) (k + 1), by decide, notMem_escapeLabel _, by decide⟩
    have last : '\n' ∉ (pad k ++ "\x7d").toList := by
      rw [String.toList_append, List.mem_append, not_or]
      exact ⟨notMem_pad (by decide) k, by decide⟩
    refine List.forall_mem_append.2 ⟨List.forall_mem_append.2 ⟨?_, ?_⟩, after k⟩
    · exact List.forall_mem_cons.2 ⟨first, List.forall_mem_cons.2 ⟨second, within (k + 1)⟩⟩
    · exact List.forall_mem_singleton.2 last

theorem notMem_arcLine (arc : Nat × Nat) :
    '\n' ∉ (arcLine arc).toList ∧ '"' ∉ (arcLine arc).toList := by
  rw [arcLine]
  simp only [String.toList_append, List.mem_append, not_or, and_assoc]
  exact ⟨by decide, notMem_repr rfl _, by decide, notMem_repr rfl _, by decide,
    by decide, notMem_repr rfl _, by decide, notMem_repr rfl _, by decide⟩

end Dot

/-! ### Mermaid -/

namespace Mermaid

/-- What stands between the first quote of a line and the next, and what stands in front of them. -/
def readLine? (line : String) : Option (String × String) :=
  (quoted? line).map fun parts => (parts.1, String.ofList (parts.2.takeWhile (· != '"')))

/-- What is read of an entry: what it is, and its label. -/
def sign : Entry → String × String
  | .node i n => ("N" ++ i.repr ++ "[", label n)
  | .group i title => ("subgraph G" ++ i.repr ++ "[", escape title)

theorem readLine?_eq_none {line : String} (free : '"' ∉ line.toList) : readLine? line = none := by
  rw [readLine?, quoted?_eq_none free]
  rfl

theorem readLine?_eq_some {front text : String} {c : Char} (number : Nat)
    (frontFree : '"' ∉ front.toList) (textFree : '"' ∉ text.toList)
    (first : front.toList.head? = some c) (notBlank : c ≠ ' ') :
    readLine? (front ++ number.repr ++ "[\"" ++ text ++ "\"]") =
      some (front ++ number.repr ++ "[", text) := by
  have shape : (front ++ number.repr ++ "[\"" ++ text ++ "\"]").toList =
      List.replicate 0 ' ' ++ (front ++ number.repr ++ "[").toList ++
        '"' :: (text.toList ++ '"' :: [']']) := by
    have opens : "[\"".toList = "[".toList ++ ['"'] := by decide
    have closes : "\"]".toList = ['"', ']'] := by decide
    simp only [String.toList_append, opens, closes, List.append_assoc, List.cons_append,
      List.replicate_zero, List.nil_append]
  have unquoted : '"' ∉ (front ++ number.repr ++ "[").toList := by
    simp only [String.toList_append, List.mem_append, not_or, and_assoc]
    exact ⟨frontFree, notMem_repr rfl _, by decide⟩
  have begins : (front ++ number.repr ++ "[").toList.head? ≠ some ' ' := by
    rw [String.toList_append, String.toList_append, List.append_assoc, List.head?_append, first]
    exact fun same => notBlank (Option.some.inj same)
  rw [readLine?, quoted?_eq_some 0 shape unquoted begins, Option.map_some,
    List.takeWhile_append_of_pos fun c here => bne_iff_ne.2 (ne_of_mem_of_not_mem here textFree),
    List.takeWhile_cons_of_neg (by decide), List.append_nil, String.ofList_toList]

/-- **Each entry of some parts is read from its element**, and nothing from the others. -/
theorem filterMap_readLine?_partsLines (parts : List Part) :
    (partsLines parts).filterMap readLine? = (entries parts).map sign := by
  induction parts using parts_induction with
  | nil => rfl
  | node i n rest hyp =>
    have read : readLine? ("N" ++ i.repr ++ "[\"" ++ label n ++ "\"]") = some (sign (.node i n)) :=
      readLine?_eq_some i (by decide) (notMem_label n) rfl (by decide)
    show (_ :: partsLines rest).filterMap readLine? = sign (.node i n) :: (entries rest).map sign
    rw [List.filterMap_cons_some read, hyp]
  | group i title inner rest within after =>
    have read : readLine? (groupLine i title) = some (sign (.group i title)) :=
      readLine?_eq_some i (by decide) (notMem_escape (by decide) title) rfl (by decide)
    have closes : readLine? "end" = none := readLine?_eq_none (by decide)
    show (_ :: partsLines inner ++ [_] ++ partsLines rest).filterMap readLine? =
      sign (.group i title) :: (entries inner ++ entries rest).map sign
    rw [List.filterMap_append, List.filterMap_append, List.filterMap_cons_some read, within, after,
      List.filterMap_cons_none closes, List.filterMap_nil, List.append_nil, List.map_append]
    rfl

/-- A node has one element, a group two. -/
theorem length_partsLines (parts : List Part) :
    (partsLines parts).length = (declared parts).length + 2 * (opened parts).length := by
  induction parts using parts_induction with
  | nil => rfl
  | node i n rest hyp =>
    show (partsLines rest).length + 1 = ((declared rest).length + 1) + 2 * (opened rest).length
    rw [hyp]
    omega
  | group i title inner rest within after =>
    show (_ :: partsLines inner ++ [_] ++ partsLines rest).length =
      (declared inner ++ declared rest).length + 2 * (i :: opened inner ++ opened rest).length
    simp only [List.length_append, List.length_cons, List.length_nil, within, after]
    omega

/-- The line breaks in the elements of a group or node are those of its entry. -/
theorem count_element (front text : String) (number : Nat) :
    (front ++ number.repr ++ "[\"" ++ text ++ "\"]").toList.count '\n' =
      front.toList.count '\n' + text.toList.count '\n' := by
  have noBreak : number.repr.toList.count '\n' = 0 := List.count_eq_zero.2 (notMem_repr rfl _)
  simp only [String.toList_append, List.count_append, noBreak]
  rfl

/-- **The line breaks of some parts** are those of their names, files and titles. -/
theorem sum_count_partsLines (parts : List Part) :
    ((partsLines parts).map (·.toList.count '\n')).sum = ((entries parts).map Entry.breaks).sum := by
  induction parts using parts_induction with
  | nil => rfl
  | node i n rest hyp =>
    have here : ("N" ++ i.repr ++ "[\"" ++ label n ++ "\"]").toList.count '\n' =
        (Entry.node i n).breaks := by
      rw [count_element, count_label]
      exact Nat.zero_add _
    show (List.count _ _ :: (partsLines rest).map _).sum = (_ :: (entries rest).map _).sum
    rw [List.sum_cons, List.sum_cons, here, hyp]
  | group i title inner rest within after =>
    have here : (groupLine i title).toList.count '\n' = (Entry.group i title).breaks := by
      rw [groupLine, count_element, count_escape]
      exact Nat.zero_add _
    show ((groupLine i title :: partsLines inner ++ ["end"] ++ partsLines rest).map _).sum =
      ((Entry.group i title :: (entries inner ++ entries rest)).map Entry.breaks).sum
    simp only [List.map_append, List.map_cons, List.map_nil, List.sum_append, List.sum_cons,
      List.sum_nil, here, within, after]
    show _ + _ + (0 + 0) + _ = _
    omega

theorem notMem_arcLine (arc : Nat × Nat) :
    '\n' ∉ (arcLine arc).toList ∧ '"' ∉ (arcLine arc).toList := by
  rw [arcLine]
  simp only [String.toList_append, List.mem_append, not_or, and_assoc]
  exact ⟨by decide, notMem_repr rfl _, by decide, notMem_repr rfl _,
    by decide, notMem_repr rfl _, by decide, notMem_repr rfl _⟩

end Mermaid

/-! ### Whole drawings -/

section

variable {g : Graph} {f : Flow} (of : f.Of g) (wf : g.WellFormed) (grouping : Grouping)

include of wf

theorem length_declared_parts : (declared (parts g f grouping)).length = f.nodeCount := by
  have numbers := congrArg List.length (map_fst_declared_parts of wf grouping)
  rwa [List.length_map, List.length_range'] at numbers

namespace Dot

theorem length_lines : (lines g f grouping).length =
    7 + f.nodeCount + 3 * (opened (parts g f grouping)).length + f.edgeCount := by
  rw [dot_lines_eq of wf]
  simp only [List.length_append, length_partsLines, length_declared_parts of wf, List.length_map,
    length_arcs, opening, List.length_cons, List.length_nil]
  omega

/-- **The lines of the text are the lines of the drawing.** -/
theorem lines_render : Text.lines (render g f grouping) = lines g f grouping ++ [""] := by
  rw [render, dot_lines_eq of wf, Text.lines_intercalate_iff (by simp),
    List.sum_eq_zero_iff_forall_eq_nat]
  refine List.forall_mem_map.2 fun line here => List.count_eq_zero.2 ?_
  simp only [List.mem_append, List.mem_map, List.mem_singleton] at here
  obtain (((fixed | ofPart) | rfl) | ⟨arc, _, rfl⟩) | rfl := here
  · revert line
    decide
  · exact notMem_partsLines _ 1 line ofPart
  · decide
  · exact (notMem_arcLine arc).1
  · decide

/-- **Every label is read from its line, and nothing from the others.** -/
theorem filterMap_readLine?_lines :
    (lines g f grouping).filterMap readLine? = (entries (parts g f grouping)).map sign := by
  have fixed : opening.filterMap readLine? = [] := by decide
  have arcsRead : ((arcs g f grouping).map arcLine).filterMap readLine? = [] := by
    rw [List.filterMap_eq_nil_iff]
    exact List.forall_mem_map.2 fun arc _ => readLine?_eq_none (notMem_arcLine arc).2
  rw [dot_lines_eq of wf]
  simp only [List.filterMap_append, fixed, arcsRead, filterMap_readLine?_partsLines]
  show [] ++ _ ++ [] ++ [] ++ [] = _
  simp only [List.nil_append, List.append_nil]

end Dot

namespace Mermaid

theorem length_lines : (lines g f grouping).length =
    1 + f.nodeCount + 2 * (opened (parts g f grouping)).length + f.edgeCount := by
  rw [mermaid_lines_eq of wf]
  simp only [List.length_append, List.length_cons, length_partsLines, length_declared_parts of wf,
    List.length_map, length_arcs]
  omega

/-- The line breaks inside the elements of a flowchart. -/
theorem sum_count_lines : ((lines g f grouping).map (·.toList.count '\n')).sum =
    ((entries (parts g f grouping)).map Entry.breaks).sum := by
  have noBreaks : (((arcs g f grouping).map arcLine).map (·.toList.count '\n')).sum = 0 := by
    rw [List.sum_eq_zero_iff_forall_eq_nat]
    exact List.forall_mem_map.2 (List.forall_mem_map.2 fun arc _ =>
      List.count_eq_zero.2 (notMem_arcLine arc).1)
  rw [mermaid_lines_eq of wf, List.map_append, List.sum_append, noBreaks, List.map_cons, List.sum_cons,
    sum_count_partsLines]
  exact Nat.zero_add _

omit of wf in
theorem lines_ne_nil : lines g f grouping ≠ [] :=
  List.cons_ne_nil _ _

/-- **How many lines the text has**: a line break in what a label is made from is one of the text. -/
theorem length_lines_render : (Text.lines (render g f grouping)).length =
    (lines g f grouping).length + ((entries (parts g f grouping)).map Entry.breaks).sum + 1 := by
  rw [render, Text.intercalate_append_break (lines_ne_nil grouping), Text.length_lines,
    Text.count_join_break, sum_count_lines of wf, Nat.add_comm (List.length _)]

/-- **The lines of the text are the elements** exactly if no name, file or title has a line break. -/
theorem lines_render_iff : Text.lines (render g f grouping) = lines g f grouping ++ [""] ↔
    ∀ e ∈ entries (parts g f grouping), e.breaks = 0 := by
  rw [render, Text.lines_intercalate_iff (lines_ne_nil grouping), sum_count_lines of wf,
    List.sum_eq_zero_iff_forall_eq_nat]
  exact List.forall_mem_map

/-- **Every label is read from its element, and nothing from the others.** -/
theorem filterMap_readLine?_lines :
    (lines g f grouping).filterMap readLine? = (entries (parts g f grouping)).map sign := by
  have fixed : readLine? "flowchart LR" = none := readLine?_eq_none (by decide)
  have arcsRead : ((arcs g f grouping).map arcLine).filterMap readLine? = [] := by
    rw [List.filterMap_eq_nil_iff]
    exact List.forall_mem_map.2 fun arc _ => readLine?_eq_none (notMem_arcLine arc).2
  rw [mermaid_lines_eq of wf, List.filterMap_append, List.filterMap_cons_none fixed, arcsRead,
    List.append_nil, filterMap_readLine?_partsLines]

end Mermaid

end

end Diagram

open Diagram CallGraph.Flow CallGraph.Graph

/-- A function with a quote for a name, one with the entity of a quote, and one with a line break. -/
def awkward : Graph where
  nodes := #[{ id := "app::a", name := "\"", modulePath := some "app" },
    { id := "app::b", name := "#quot;", modulePath := some "app" },
    { id := "app::c", name := "end\nend", modulePath := some "app" }]
  edges := #[⟨0, 1, {}⟩, ⟨1, 2, {}⟩]

theorem wellFormed_awkward : awkward.WellFormed := by decide +kernel

/-- Its calls. -/
def awkwardCalls : Flow where
  links := [⟨0, 1, 0⟩, ⟨1, 2, 1⟩]

theorem obtained_awkwardCalls : Obtained awkward awkwardCalls := by
  have run : (selectWhole awkward ⟨awkward, {}, none⟩ none .none).run.value = .ok awkwardCalls := by
    decide +kernel
  exact .selectWhole run

theorem sortedNodes_awkward : sortedNodes awkward awkwardCalls =
    awkwardCalls.nodes.filterMap fun v => (awkward.node? v).map fun n => (v, n) :=
  List.mergeSort_of_pairwise (by decide +kernel)

/-- **A Graphviz drawing can be read back.** A label has no line break and no quote but in an escape,
and the text it is made from is found again, so that the lines of the text are those of the drawing: one
for each node and pair, three for each group, seven for the frame. The label of each node and group is
read from its line. -/
theorem dot_reads_back {g : Graph} (wf : g.WellFormed) {f : Flow} (obtained : Obtained g f)
    (grouping : Grouping) :
    (∀ t : String,
      Dot.escapeLabel t =
        Text.substitute (Text.substitute (Text.substitute t '\\' "\\\\") '"' "\\\"") '\n' "\\n" ∧
      '\n' ∉ (Dot.escapeLabel t).toList ∧ Dot.cutLabel? (Dot.escapeLabel t).toList = none ∧
      Dot.unescape? (Dot.escapeLabel t).toList = some t.toList) ∧
    Drawn g f grouping (parts g f grouping) (arcs g f grouping) ∧
    Dot.lines g f grouping = Dot.opening ++ Dot.partsLines 1 (parts g f grouping) ++ [""] ++
      (arcs g f grouping).map Dot.arcLine ++ ["\x7d"] ∧
    Text.lines (renderFlow g f .dot grouping) = Dot.lines g f grouping ++ [""] ∧
    (Dot.lines g f grouping).length =
      7 + f.nodeCount + 3 * (opened (parts g f grouping)).length + f.edgeCount ∧
    (Dot.lines g f grouping).filterMap Dot.readLine? =
      (entries (parts g f grouping)).map Dot.sign := by
  have of := obtained.of
  refine ⟨fun t => ⟨Dot.escapeLabel_eq t, Dot.notMem_escapeLabel t, Dot.cutLabel?_escapeLabel_eq_none t,
    Dot.unescape?_escapeLabel t⟩, drawn_parts of wf grouping, dot_lines_eq of wf grouping,
    Dot.lines_render of wf grouping, Dot.length_lines of wf grouping,
    Dot.filterMap_readLine?_lines of wf grouping⟩

theorem dot_reads_back_awkward : awkward.WellFormed ∧ Obtained awkward awkwardCalls ∧
    Text.lines (renderFlow awkward awkwardCalls .dot .byModule) =
      Dot.lines awkward awkwardCalls .byModule ++ [""] ∧
    (Dot.lines awkward awkwardCalls .byModule).length = 7 + 3 + 3 * 1 + 2 ∧
    (Dot.lines awkward awkwardCalls .byModule).filterMap Dot.readLine? =
      [("", "pkg:app"), ("N1 [", "\"\n?:0"), ("N2 [", "#quot;\n?:0"), ("N3 [", "end\nend\n?:0")] := by
  obtain ⟨_, _, _, lines, length, read⟩ :=
    dot_reads_back wellFormed_awkward obtained_awkwardCalls .byModule
  rw [parts, sortedNodes_awkward] at length read
  exact ⟨wellFormed_awkward, obtained_awkwardCalls, lines, length.trans (by decide +kernel),
    read.trans (by decide +kernel)⟩

/-- **What can be read back of a flowchart.** It has one element for each node and pair, two for each group
and one for the frame, and the label of each node and group is read from its element. The elements are
the lines of the text exactly if no name, file or title has a line break; otherwise there are more lines.
A label tells the name, the file and the line of its node once the entities are decoded, and so does a
title: texts without an entity are read as they are. -/
theorem mermaid_reads_back {g : Graph} (wf : g.WellFormed) {f : Flow} (obtained : Obtained g f)
    (grouping : Grouping) :
    (Drawn g f grouping (parts g f grouping) (arcs g f grouping) ∧
      Mermaid.lines g f grouping = "flowchart LR" :: Mermaid.partsLines (parts g f grouping) ++
        (arcs g f grouping).map Mermaid.arcLine ∧
      (Mermaid.lines g f grouping).length =
        1 + f.nodeCount + 2 * (opened (parts g f grouping)).length + f.edgeCount ∧
      (Mermaid.lines g f grouping).filterMap Mermaid.readLine? =
        (entries (parts g f grouping)).map Mermaid.sign) ∧
    ((Text.lines (renderFlow g f .mermaid grouping)).length = (Mermaid.lines g f grouping).length +
        ((entries (parts g f grouping)).map Entry.breaks).sum + 1 ∧
      (Text.lines (renderFlow g f .mermaid grouping) = Mermaid.lines g f grouping ++ [""] ↔
        ∀ e ∈ entries (parts g f grouping), e.breaks = 0)) ∧
    (∀ n m, Mermaid.label n = Mermaid.label m ↔
      Mermaid.decoded n.name = Mermaid.decoded m.name ∧
      Mermaid.decoded (placeText n).1 = Mermaid.decoded (placeText m).1 ∧
      (placeText n).2 = (placeText m).2) ∧
    ∀ s, (∀ t, Mermaid.escape s = Mermaid.escape t ↔ Mermaid.decoded s = Mermaid.decoded t) ∧
      Mermaid.escape s =
        Text.substitute (Text.substitute (Text.substitute s '"' "#quot;") '<' "#lt;") '>' "#gt;" ∧
      (Mermaid.decoded s = s ↔
        ∀ entity ∈ ["#quot;", "#lt;", "#gt;"], Text.contains s entity = false) := by
  have of := obtained.of
  refine ⟨⟨drawn_parts of wf grouping, mermaid_lines_eq of wf grouping,
      Mermaid.length_lines of wf grouping, Mermaid.filterMap_readLine?_lines of wf grouping⟩,
    ⟨Mermaid.length_lines_render of wf grouping, Mermaid.lines_render_iff of wf grouping⟩,
    fun n m => Mermaid.label_eq_label_iff, fun s => ⟨fun t => Mermaid.escape_eq_escape_iff,
      Mermaid.escape_eq s, Mermaid.decoded_eq_self_iff⟩⟩

theorem mermaid_reads_back_awkward : awkward.WellFormed ∧ Obtained awkward awkwardCalls ∧
    (Mermaid.lines awkward awkwardCalls .byModule).length = 1 + 3 + 2 * 1 + 2 ∧
    (Mermaid.lines awkward awkwardCalls .byModule).filterMap Mermaid.readLine? =
      [("subgraph G1[", "pkg:app"), ("N1[", "#quot;<br/>?:0"), ("N2[", "#quot;<br/>?:0"),
        ("N3[", "end\nend<br/>?:0")] := by
  obtain ⟨⟨_, _, length, read⟩, _⟩ :=
    mermaid_reads_back wellFormed_awkward obtained_awkwardCalls .byModule
  rw [parts, sortedNodes_awkward] at length read
  exact ⟨wellFormed_awkward, obtained_awkwardCalls, length.trans (by decide +kernel),
    read.trans (by decide +kernel)⟩

/-- **A flowchart may have broken lines, and a label does not tell the name**: the quote and its entity
are written alike, and the line break is written as it is. -/
theorem mermaid_labels_alike : awkward.WellFormed ∧ Obtained awkward awkwardCalls ∧
    (Text.lines (renderFlow awkward awkwardCalls .mermaid .flat)).length ≠
      1 + awkwardCalls.nodeCount + 2 * (opened (parts awkward awkwardCalls .flat)).length +
        awkwardCalls.edgeCount + 1 ∧
    ¬ Function.Injective Mermaid.escape ∧
    ∃ n ∈ awkward.nodes, ∃ m ∈ awkward.nodes, n.name ≠ m.name ∧ Mermaid.label n = Mermaid.label m := by
  have breaks : ((entries (parts awkward awkwardCalls .flat)).map Entry.breaks).sum = 1 := by
    rw [parts, sortedNodes_awkward]
    decide +kernel
  refine ⟨wellFormed_awkward, obtained_awkwardCalls, fun same => ?_, fun injective => ?_, ?_⟩
  · have all := Mermaid.length_lines_render obtained_awkwardCalls.of wellFormed_awkward .flat
    rw [breaks, Mermaid.length_lines obtained_awkwardCalls.of wellFormed_awkward] at all
    exact absurd (all.symm.trans same) (by omega)
  · exact absurd (injective (show Mermaid.escape "\"" = Mermaid.escape "#quot;" by decide)) (by decide)
  · decide +kernel

end CallGraph
