import CallGraph.Proofs.Drawing
import CallGraph.Proofs.Labels

/-!
**How the parts and arcs of a drawing are written.**

The lines of both formats, spelled out, and the ids that can be read back from them.

* `Placed` — the place of a node as its label tells it;
* `Mermaid.Written`, `Dot.Written` — the lines of some parts, `Mermaid.written_partsLines`,
  `Dot.written_partsLines` — those of a drawing;
* `readDeclared?`, `readArc?` — the id that a line declares, and the two that it joins;
* `Mermaid.Spells`, `Dot.Spells` — the lines of a whole drawing, and the ids that are read from them.
-/

namespace CallGraph

namespace Diagram

open CallGraph.Flow CallGraph.Graph

/-- **Induction along the parts of a drawing.** -/
theorem parts_induction {holds : List Part → Prop} (nil : holds [])
    (node : ∀ i n rest, holds rest → holds (.node i n :: rest))
    (group : ∀ i title inner rest, holds inner → holds rest → holds (.group i title inner :: rest)) :
    ∀ parts, holds parts
  | [] => nil
  | .node i n :: rest => node i n rest (parts_induction nil node group rest)
  | .group i title inner :: rest =>
    group i title inner rest (parts_induction nil node group inner)
      (parts_induction nil node group rest)

/-- **The place of a node as its label tells it**: the name of the file, and the line. -/
inductive Placed (n : Node) : String → Nat → Prop
  | known {l : Location} : n.location = some l → Placed n l.fileName l.line
  | unknown : n.location = none → Placed n "?" 0

theorem placed_placeText (n : Node) : Placed n (placeText n).1 (placeText n).2 := by
  rw [placeText]
  cases place : n.location with
  | none => exact .unknown place
  | some l => exact .known place

/-! ### Ids on a line -/

/-- The id at the start of some characters, but for blanks, and what stands behind it. -/
def readId? (cs : List Char) : Option (Nat × List Char) :=
  ((cs.dropWhile (· == ' ')).dropPrefix? ['N']).bind fun rest =>
    if (Json.digits rest).1 = [] then none
    else some (Json.decimal (Json.digits rest).1, (Json.digits rest).2)

/-- The id that a line declares: there is a bracket behind it. -/
def readDeclared? (line : String) : Option Nat :=
  (readId? line.toList).bind fun id =>
    if (id.2.dropWhile (· == ' ')).head? = some '[' then some id.1 else none

/-- The ids that a line joins, if it has this arrow between them and ends so. -/
def readArc? (arrow ending line : String) : Option (Nat × Nat) :=
  (readId? line.toList).bind fun caller =>
    (caller.2.dropPrefix? arrow.toList).bind fun rest =>
      (readId? rest).bind fun callee =>
        if callee.2 = ending.toList then some (caller.1, callee.1) else none

theorem dropPrefix?_append (start rest : List Char) : (start ++ rest).dropPrefix? start = some rest :=
  List.dropPrefix?_eq_some_iff.2 ⟨start, rfl, beq_self_eq_true start⟩

/-- Blanks at the start do not count. -/
theorem dropWhile_blanks (blanks : Nat) (cs : List Char) :
    (List.replicate blanks ' ' ++ cs).dropWhile (· == ' ') = cs.dropWhile (· == ' ') :=
  List.dropWhile_append_of_pos fun _ blank => beq_iff_eq.2 (List.eq_of_mem_replicate blank)

/-- **An id is read**, wherever its number ends. -/
theorem readId?_id (blanks i : Nat) {behind : List Char} (apart : Json.Apart behind) :
    readId? (List.replicate blanks ' ' ++ 'N' :: (i.repr.toList ++ behind)) = some (i, behind) := by
  have start : (List.replicate blanks ' ' ++ 'N' :: (i.repr.toList ++ behind)).dropWhile (· == ' ') =
      ['N'] ++ (i.repr.toList ++ behind) := dropWhile_blanks blanks _
  have number : i.repr.toList ≠ [] := by
    rw [Nat.toList_repr]
    exact Nat.toDigits_ne_nil
  rw [readId?, start, dropPrefix?_append, Option.bind_some,
    Json.digits_append (fun _ => Json.isDigit_of_mem_repr) apart, if_neg number, Json.decimal_repr]

/-- What does not start like an id is none. -/
theorem readId?_eq_none (blanks : Nat) {c : Char} {behind : List Char} (notBlank : c ≠ ' ')
    (other : c ≠ 'N') : readId? (List.replicate blanks ' ' ++ c :: behind) = none := by
  have start : (List.replicate blanks ' ' ++ c :: behind).dropWhile (· == ' ') = c :: behind := by
    rw [dropWhile_blanks]
    exact List.dropWhile_cons_of_neg fun blank => notBlank (eq_of_beq blank)
  have none : (c :: behind).dropPrefix? ['N'] = none := by
    rw [List.dropPrefix?, if_neg fun same => other (eq_of_beq same)]
  rw [readId?, start, none, Option.bind_none]

/-- A line on which neither an id is declared nor two are joined. -/
def IsFrame (line : String) : Prop :=
  readId? line.toList = none

instance (line : String) : Decidable (IsFrame line) :=
  inferInstanceAs (Decidable (readId? line.toList = none))

section

variable {line arrow ending : String} {i j : Nat}

theorem IsFrame.reads (frame : IsFrame line) (arrow ending : String) :
    readDeclared? line = none ∧ readArc? arrow ending line = none := by
  rw [readDeclared?, readArc?, frame]
  exact ⟨rfl, rfl⟩

/-- **A line that declares an id** joins none. -/
theorem reads_of_declares (blanks : Nat) (behind : List Char)
    (shape : line.toList = List.replicate blanks ' ' ++ 'N' :: (i.repr.toList ++ behind))
    (apart : Json.Apart behind) (bracket : (behind.dropWhile (· == ' ')).head? = some '[')
    (noArrow : behind.dropPrefix? arrow.toList = none) :
    readDeclared? line = some i ∧ readArc? arrow ending line = none := by
  rw [readDeclared?, readArc?, shape, readId?_id blanks i apart, Option.bind_some, Option.bind_some,
    if_pos bracket, noArrow]
  exact ⟨rfl, rfl⟩

/-- **A line that joins two ids** declares none. -/
theorem reads_of_joins (blanks : Nat)
    (shape : line.toList = List.replicate blanks ' ' ++ 'N' :: (i.repr.toList ++
      (arrow.toList ++ 'N' :: (j.repr.toList ++ ending.toList))))
    (noBracket : ∀ rest, ((arrow.toList ++ rest).dropWhile (· == ' ')).head? ≠ some '[')
    (apart : ∀ rest, Json.Apart (arrow.toList ++ rest)) (ends : Json.Apart ending.toList) :
    readDeclared? line = none ∧ readArc? arrow ending line = some (i, j) := by
  have callee : readId? ('N' :: (j.repr.toList ++ ending.toList)) = some (j, ending.toList) :=
    readId?_id 0 j ends
  rw [readDeclared?, readArc?, shape, readId?_id blanks i (apart _), Option.bind_some,
    Option.bind_some, if_neg (noBracket _), dropPrefix?_append, Option.bind_some, callee,
    Option.bind_some, if_pos rfl]
  exact ⟨rfl, rfl⟩

end

/-- **The ids that are read from some lines**: those they declare, and those they join. -/
def Reads (arrow ending : String) (lines : List String) (declares : List Nat)
    (joins : List (Nat × Nat)) : Prop :=
  lines.filterMap readDeclared? = declares ∧ lines.filterMap (readArc? arrow ending) = joins

namespace Reads

variable {arrow ending : String} {lines lines' : List String} {declares declares' : List Nat}
  {joins joins' : List (Nat × Nat)}

theorem append (first : Reads arrow ending lines declares joins)
    (second : Reads arrow ending lines' declares' joins') :
    Reads arrow ending (lines ++ lines') (declares ++ declares') (joins ++ joins') := by
  rw [Reads, List.filterMap_append, List.filterMap_append, first.1, first.2, second.1, second.2]
  exact ⟨rfl, rfl⟩

theorem frame {line : String} (frame : IsFrame line) (rest : Reads arrow ending lines declares joins) :
    Reads arrow ending (line :: lines) declares joins := by
  obtain ⟨noId, noArc⟩ := frame.reads arrow ending
  rw [Reads, List.filterMap_cons_none noId, List.filterMap_cons_none noArc]
  exact rest

theorem declared {line : String} {i : Nat}
    (here : readDeclared? line = some i ∧ readArc? arrow ending line = none)
    (rest : Reads arrow ending lines declares joins) :
    Reads arrow ending (line :: lines) (i :: declares) joins := by
  rw [Reads, List.filterMap_cons_some here.1, List.filterMap_cons_none here.2, rest.1, rest.2]
  exact ⟨rfl, rfl⟩

/-- One line for each of some arcs. -/
theorem map_arcs {written : Nat × Nat → String} (arcs : List (Nat × Nat))
    (here : ∀ arc, readDeclared? (written arc) = none ∧ readArc? arrow ending (written arc) = some arc) :
    Reads arrow ending (arcs.map written) [] arcs := by
  induction arcs with
  | nil => exact ⟨rfl, rfl⟩
  | cons arc rest hyp =>
    rw [Reads, List.map_cons, List.filterMap_cons_none (here arc).1,
      List.filterMap_cons_some (here arc).2, hyp.1, hyp.2]
    exact ⟨rfl, rfl⟩

end Reads

/-! ### Mermaid -/

namespace Mermaid

/-- A text with entities for quotes and angle brackets. -/
def withEntities (t : String) : String :=
  Text.substitute (Text.substitute (Text.substitute t '"' "#quot;") '<' "#lt;") '>' "#gt;"

/-- **The lines of the parts of a flowchart**: one for each node, with its id and its label, and for each
group one that opens it and one that closes it, around the lines of what is in it. -/
inductive Written : List Part → List String → Prop
  | nil : Written [] []
  | node {i line : Nat} {n : Node} {file : String} {rest : List Part} {lines : List String} :
    Placed n file line → Written rest lines →
      Written (.node i n :: rest)
        (("N" ++ i.repr ++ "[\"" ++ withEntities n.name ++ "<br/>" ++ withEntities file ++ ":" ++
          line.repr ++ "\"]") :: lines)
  | group {i : Nat} {title : String} {inner rest : List Part} {inside lines : List String} :
    Written inner inside → Written rest lines →
      Written (.group i title inner :: rest)
        (("subgraph G" ++ i.repr ++ "[\"" ++ withEntities title ++ "\"]") :: inside ++ "end" :: lines)

/-- **The lines of a flowchart** with these parts and arcs. -/
inductive Spells (parts : List Part) (arcs : List (Nat × Nat)) : List String → Prop
  | intro {above : List String} : Written parts above →
    Spells parts arcs ("flowchart LR" :: above ++
      arcs.map fun arc => "N" ++ arc.1.repr ++ " --> N" ++ arc.2.repr)

theorem written_partsLines (parts : List Part) : Written parts (partsLines parts) := by
  induction parts using parts_induction with
  | nil => exact .nil
  | node i n rest hyp =>
    have written : Written (.node i n :: rest) _ := .node (placed_placeText n) hyp
    simp only [withEntities, ← escape_eq] at written
    have same : "N" ++ i.repr ++ "[\"" ++ label n ++ "\"]" = "N" ++ i.repr ++ "[\"" ++ escape n.name ++
        "<br/>" ++ escape (placeText n).1 ++ ":" ++ (placeText n).2.repr ++ "\"]" := by
      simp only [label, String.append_assoc]
    rwa [← same] at written
  | group i title inner rest within after =>
    have written : Written (.group i title inner :: rest) _ := .group within after
    rw [withEntities, ← escape_eq] at written
    show Written _ (_ :: partsLines inner ++ ["end"] ++ partsLines rest)
    rwa [List.append_assoc, List.singleton_append]

/-- **Every declared id is read from its line, and nothing from the lines of groups.** -/
theorem Written.reads {parts : List Part} {lines : List String} (written : Written parts lines) :
    Reads " --> " "" lines ((declared parts).map (·.1)) [] := by
  induction written with
  | nil => exact ⟨rfl, rfl⟩
  | @node i line n file rest lines _ _ hyp =>
    refine hyp.declared (reads_of_declares 0 ('[' :: '"' :: (withEntities n.name ++ "<br/>" ++
      withEntities file ++ ":" ++ line.repr ++ "\"]").toList) ?_ ?_ ?_ ?_)
    · have start : "N".toList = ['N'] := by decide
      have opens : "[\"".toList = ['[', '"'] := by decide
      simp only [String.toList_append, start, opens, List.append_assoc, List.cons_append,
        List.nil_append, List.replicate_zero]
    · intro c here
      cases here
      decide
    · rfl
    · rfl
  | @group i title inner rest inside lines _ _ within after =>
    have opens : IsFrame ("subgraph G" ++ i.repr ++ "[\"" ++ withEntities title ++ "\"]") := by
      rw [IsFrame]
      simp only [String.toList_append, List.append_assoc]
      exact readId?_eq_none 0 (by decide) (by decide)
    have closes : IsFrame "end" := by decide
    show Reads _ _ _ ((declared inner ++ declared rest).map (·.1)) _
    rw [List.map_append]
    exact (within.append (after.frame closes)).frame opens

theorem reads_arc (arc : Nat × Nat) :
    readDeclared? ("N" ++ arc.1.repr ++ " --> N" ++ arc.2.repr) = none ∧
      readArc? " --> " "" ("N" ++ arc.1.repr ++ " --> N" ++ arc.2.repr) = some arc := by
  refine reads_of_joins 0 ?_ ?_ ?_ ?_
  · have start : "N".toList = ['N'] := by decide
    have middle : " --> N".toList = " --> ".toList ++ ['N'] := by decide
    have ending : "".toList = [] := by decide
    simp only [String.toList_append, start, middle, ending, List.append_assoc, List.cons_append,
      List.nil_append, List.append_nil, List.replicate_zero]
  · intro rest
    show some '-' ≠ some '['
    decide
  · intro rest c here
    cases here
    decide
  · intro c here
    cases here

/-- **The ids of a flowchart are read back**: those of its declarations, and its arcs. -/
theorem Spells.reads {parts : List Part} {arcs : List (Nat × Nat)} {lines : List String}
    (spells : Spells parts arcs lines) :
    Reads " --> " "" lines ((declared parts).map (·.1)) arcs := by
  obtain ⟨written⟩ := spells
  have frame : IsFrame "flowchart LR" := by decide
  have all := (written.reads.frame frame).append (Reads.map_arcs arcs reads_arc)
  rwa [List.append_nil] at all

end Mermaid

/-! ### Graphviz -/

namespace Dot

/-- A text with escapes for backslashes, quotes and line breaks. -/
def withEscapes (t : String) : String :=
  Text.substitute (Text.substitute (Text.substitute t '\\' "\\\\") '"' "\\\"") '\n' "\\n"

/-- **The style and the colour of a node.** -/
inductive Styled (n : Node) : String → String → Prop
  | std : n.isStd = true → Styled n "filled,dashed" "#6c7086"
  | exported : n.isStd = false → n.exported = true → Styled n "filled" "#89b4fa"
  | hidden : n.isStd = false → n.exported = false → Styled n "filled" "#cdd6f4"

/-- **The lines of the parts of a Graphviz drawing** that stand so deep: one for each node, with its id and
its label, and for each cluster one that opens it, its label and one that closes it, around the lines of
what is in it, which stand deeper. -/
inductive Written : Nat → List Part → List String → Prop
  | nil {depth : Nat} : Written depth [] []
  | node {depth i line : Nat} {n : Node} {file style colour : String} {rest : List Part}
      {lines : List String} :
    Placed n file line → Styled n style colour → Written depth rest lines →
      Written depth (.node i n :: rest)
        ((String.ofList (List.replicate (4 * depth) ' ') ++ "N" ++ i.repr ++ " [label=\"" ++
          withEscapes (n.name ++ "\n" ++ file ++ ":" ++ line.repr) ++ "\", style=\"" ++ style ++
          "\", fillcolor=\"" ++ colour ++ "\"];") :: lines)
  | group {depth i : Nat} {title : String} {inner rest : List Part} {inside lines : List String} :
    Written (depth + 1) inner inside → Written depth rest lines →
      Written depth (.group i title inner :: rest)
        ((String.ofList (List.replicate (4 * depth) ' ') ++ "subgraph cluster_" ++ i.repr ++ " \x7b") ::
          (String.ofList (List.replicate (4 * (depth + 1)) ' ') ++ "label=\"" ++ withEscapes title ++
            "\";") :: inside ++
          (String.ofList (List.replicate (4 * depth) ' ') ++ "\x7d") :: lines)

/-- **The lines of a Graphviz drawing** with these parts and arcs. -/
inductive Spells (parts : List Part) (arcs : List (Nat × Nat)) : List String → Prop
  | intro {above : List String} : Written 1 parts above →
    Spells parts arcs (["digraph callgraph \x7b", "    rankdir=LR;",
        "    node [shape=box, fontname=\"Helvetica\", fontsize=12];",
        "    edge [fontname=\"Helvetica\", fontsize=10];", ""] ++ above ++ [""] ++
      (arcs.map fun arc => "    N" ++ arc.1.repr ++ " -> N" ++ arc.2.repr ++ ";") ++ ["\x7d"])

theorem styled_look (n : Node) : Styled n (look n).2 (look n).1 := by
  rw [look]
  cases std : n.isStd with
  | true => exact .std std
  | false =>
    cases exported : n.exported with
    | true => exact .exported std exported
    | false => exact .hidden std exported

theorem written_partsLines (parts : List Part) (depth : Nat) :
    Written depth parts (partsLines depth parts) := by
  induction parts using parts_induction generalizing depth with
  | nil => exact .nil
  | node i n rest hyp =>
    have written : Written depth (.node i n :: rest) _ :=
      .node (placed_placeText n) (styled_look n) (hyp depth)
    rw [withEscapes, ← escapeLabel_eq] at written
    exact written
  | group i title inner rest within after =>
    have written : Written depth (.group i title inner :: rest) _ :=
      .group (within (depth + 1)) (after depth)
    rw [withEscapes, ← escapeLabel_eq] at written
    show Written _ _ (_ :: _ :: partsLines (depth + 1) inner ++ [_] ++ partsLines depth rest)
    rwa [List.append_assoc, List.singleton_append]

/-- What stands behind blanks starts like no id. -/
theorem isFrame_pad (blanks : Nat) {c : Char} {text : String} (rest : List Char)
    (shape : text.toList = c :: rest) (notBlank : c ≠ ' ') (other : c ≠ 'N') :
    IsFrame (String.ofList (List.replicate blanks ' ') ++ text) := by
  rw [IsFrame, String.toList_append, String.toList_ofList, shape]
  exact readId?_eq_none blanks notBlank other

/-- **Every declared id is read from its line, and nothing from the lines of clusters.** -/
theorem Written.reads {depth : Nat} {parts : List Part} {lines : List String}
    (written : Written depth parts lines) :
    Reads " -> " ";" lines ((declared parts).map (·.1)) [] := by
  induction written with
  | nil => exact ⟨rfl, rfl⟩
  | @node depth i line n file style colour rest lines _ _ _ hyp =>
    refine hyp.declared (reads_of_declares (4 * depth) (" [label=\"".toList ++
      (withEscapes (n.name ++ "\n" ++ file ++ ":" ++ line.repr) ++ "\", style=\"" ++ style ++
        "\", fillcolor=\"" ++ colour ++ "\"];").toList) ?_ ?_ ?_ ?_)
    · have start : "N".toList = ['N'] := by decide
      simp only [String.toList_append, String.toList_ofList, start, List.append_assoc,
        List.cons_append, List.nil_append]
    · intro c here
      cases here
      decide
    · rfl
    · rfl
  | @group depth i title inner rest inside lines _ _ within after =>
    have opens : IsFrame (String.ofList (List.replicate (4 * depth) ' ') ++ "subgraph cluster_" ++
        i.repr ++ " \x7b") := by
      rw [String.append_assoc, String.append_assoc]
      exact isFrame_pad _ _ (String.toList_append ..) (by decide) (by decide)
    have labels : IsFrame (String.ofList (List.replicate (4 * (depth + 1)) ' ') ++ "label=\"" ++
        withEscapes title ++ "\";") := by
      rw [String.append_assoc, String.append_assoc]
      exact isFrame_pad _ _ (String.toList_append ..) (by decide) (by decide)
    have closes : IsFrame (String.ofList (List.replicate (4 * depth) ' ') ++ "\x7d") :=
      isFrame_pad _ [] (show _ = ['\x7d'] by decide) (by decide) (by decide)
    show Reads _ _ _ ((declared inner ++ declared rest).map (·.1)) _
    rw [List.map_append]
    exact ((within.append (after.frame closes)).frame labels).frame opens

theorem reads_arc (arc : Nat × Nat) :
    readDeclared? ("    N" ++ arc.1.repr ++ " -> N" ++ arc.2.repr ++ ";") = none ∧
      readArc? " -> " ";" ("    N" ++ arc.1.repr ++ " -> N" ++ arc.2.repr ++ ";") = some arc := by
  refine reads_of_joins 4 ?_ ?_ ?_ ?_
  · have start : "    N".toList = List.replicate 4 ' ' ++ ['N'] := by decide
    have middle : " -> N".toList = " -> ".toList ++ ['N'] := by decide
    simp only [String.toList_append, start, middle, List.append_assoc, List.cons_append,
      List.nil_append]
  · intro rest
    show some '-' ≠ some '['
    decide
  · intro rest c here
    cases here
    decide
  · intro c here
    cases here
    decide

/-- **The ids of a Graphviz drawing are read back**: those of its declarations, and its arcs. -/
theorem Spells.reads {parts : List Part} {arcs : List (Nat × Nat)} {lines : List String}
    (spells : Spells parts arcs lines) :
    Reads " -> " ";" lines ((declared parts).map (·.1)) arcs := by
  obtain ⟨written⟩ := spells
  have opening : Reads " -> " ";" ["digraph callgraph \x7b", "    rankdir=LR;",
      "    node [shape=box, fontname=\"Helvetica\", fontsize=12];",
      "    edge [fontname=\"Helvetica\", fontsize=10];", ""] [] [] := ⟨by decide, by decide⟩
  have blank : Reads " -> " ";" [""] [] [] := ⟨by decide, by decide⟩
  have closing : Reads " -> " ";" ["\x7d"] [] [] := ⟨by decide, by decide⟩
  have all := (((opening.append written.reads).append blank).append
    (Reads.map_arcs arcs reads_arc)).append closing
  simpa only [List.nil_append, List.append_nil] using all

end Dot

end Diagram

end CallGraph
