import CallGraph.Json.Decode
import CallGraph.Proofs.JsonText

/-!
**JSON values on one line.**

A value on one line can be sent where lines are counted: no control character stands in it, so no
line break, and whoever reads the line reads the value.

* `printed_compact` — every character of the line is printed, whatever the strings of the value
  hold;
* `spells_compact`, `readText_compact` — the line is read back.
-/

namespace CallGraph.Json

/-! ### No control characters -/

/-- A character that is not a control character below the blank. -/
def Printed (c : Char) : Prop :=
  32 ≤ c.toNat

instance (c : Char) : Decidable (Printed c) :=
  inferInstanceAs (Decidable (32 ≤ c.toNat))

/-- The characters of a text that is known are looked at one by one. -/
theorem printed_of_all {cs : List Char} (all : (cs.all fun c => Printed c) = true) :
    ∀ c ∈ cs, Printed c := by
  simpa using all

theorem printed_escapeCode : ∀ n : Fin 32,
    ((escapeCode (Char.ofNat n)).all fun c => Printed c) = true := by
  decide +kernel

theorem printed_letters : ∀ p ∈ letters, ((escapeChar p.1).all fun c => Printed c) = true := by
  decide

/-- A character is escaped to printed ones, whatever it is. -/
theorem printed_escapeChar (c : Char) : ∀ d ∈ escapeChar c, Printed d := by
  by_cases letter : c ∈ letters.map (·.1)
  · obtain ⟨p, listed, rfl⟩ := List.mem_map.1 letter
    exact printed_of_all (printed_letters p listed)
  · rw [(escapeChar_other letter).1]
    split
    · rename_i control
      have digits := printed_of_all (printed_escapeCode ⟨c.toNat, control⟩)
      rwa [Char.ofNat_toNat] at digits
    · rename_i printed
      exact List.forall_mem_singleton.2 (Nat.le_of_not_lt printed)

theorem printed_quote (s : String) : ∀ c ∈ (quote s).toList, Printed c := by
  intro c here
  have inside : c = '"' ∨ ∃ d, d ∈ s.toList ∧ c ∈ escapeChar d := by
    simpa [quote, Text.encode, or_comm] using here
  rcases inside with rfl | ⟨d, _, here⟩
  · decide
  · exact printed_escapeChar d c here

theorem printed_repr (n : Nat) : ∀ c ∈ n.repr.toList, Printed c := by
  intro c here
  have digit := isDigit_of_mem_repr here
  simp only [Char.isDigit, Bool.and_eq_true, decide_eq_true_eq] at digit
  exact Nat.le_trans (by decide) (UInt32.le_iff_toNat_le.1 digit.1)

/-- Printed texts with commas between them. -/
theorem printed_intercalate {texts : List String}
    (each : ∀ text ∈ texts, ∀ c ∈ text.toList, Printed c) :
    ∀ c ∈ (",".intercalate texts).toList, Printed c := by
  rw [String.toList_intercalate]
  induction texts with
  | nil => exact fun _ here => absurd here List.not_mem_nil
  | cons text texts hyp =>
    obtain ⟨first, others⟩ := List.forall_mem_cons.1 each
    cases texts with
    | nil => rwa [List.map_singleton, List.intercalate_singleton]
    | cons second texts =>
      rw [List.map_cons, List.map_cons, List.intercalate_cons_cons]
      have comma : ∀ c ∈ ",".toList, Printed c := printed_of_all (by decide)
      exact List.forall_mem_append.2 ⟨List.forall_mem_append.2 ⟨first, comma⟩, hyp others⟩

/-- Printed texts with commas between them, in brackets. -/
theorem printed_bracketed {left right : String} {texts : List String}
    (opens : ∀ c ∈ left.toList, Printed c) (ends : ∀ c ∈ right.toList, Printed c)
    (each : ∀ text ∈ texts, ∀ c ∈ text.toList, Printed c) :
    ∀ c ∈ (left ++ ",".intercalate texts ++ right).toList, Printed c := by
  rw [String.toList_append, String.toList_append]
  exact List.forall_mem_append.2
    ⟨List.forall_mem_append.2 ⟨opens, printed_intercalate each⟩, ends⟩

mutual

/-- **A value on one line has printed characters only**, whatever its strings hold. -/
theorem printed_compact : ∀ (j : Json), ∀ c ∈ j.compact.toList, Printed c
  | null => by
    rw [compact]
    exact printed_of_all (by decide)
  | bool b => by
    rw [compact]
    cases b <;> exact printed_of_all (by decide)
  | number (.natural n) => printed_repr n
  | number .other | number .tooLarge => by
    rw [compact]
    exact printed_of_all (by decide)
  | string s => by
    rw [compact]
    exact printed_quote s
  | array items => by
    rw [compact]
    exact printed_bracketed (printed_of_all (by decide)) (printed_of_all (by decide))
      (printed_compactItems items)
  | object members => by
    rw [compact]
    exact printed_bracketed (printed_of_all (by decide)) (printed_of_all (by decide))
      (printed_compactMembers members)

theorem printed_compactItems : ∀ (items : List Json), ∀ text ∈ compactItems items,
    ∀ c ∈ text.toList, Printed c
  | [] => by
    rw [compactItems]
    exact fun _ here => absurd here List.not_mem_nil
  | j :: rest => by
    rw [compactItems]
    exact List.forall_mem_cons.2 ⟨printed_compact j, printed_compactItems rest⟩

theorem printed_compactMembers : ∀ (members : List (String × Json)),
    ∀ text ∈ compactMembers members, ∀ c ∈ text.toList, Printed c
  | [] => by
    rw [compactMembers]
    exact fun _ here => absurd here List.not_mem_nil
  | (key, j) :: rest => by
    have member : ∀ c ∈ (quote key ++ ":" ++ j.compact).toList, Printed c := by
      rw [String.toList_append, String.toList_append]
      exact List.forall_mem_append.2
        ⟨List.forall_mem_append.2 ⟨printed_quote key, printed_of_all (by decide)⟩, printed_compact j⟩
    rw [compactMembers]
    exact List.forall_mem_cons.2 ⟨member, printed_compactMembers rest⟩

end

/-- Entries between brackets, with nothing but commas between them. -/
theorem closes_listed {left right : Char} {opened closed : Token} (opens : Closes [left] [opened])
    (ends : Closes [right] [closed]) (apart : ∀ rest, Apart (right :: rest)) {texts : List String}
    {ts : List (List Token)} (each : List.Forall₂ Spells (texts.map String.toList) ts) :
    Closes ([left] ++ (",".intercalate texts).toList ++ [right])
      ([opened] ++ [Token.comma].intercalate ts ++ [closed]) := by
  have comma : Closes ",".toList [.comma] :=
    closes_symbol ',' (by decide) (fun _ => rfl) Token.noConfusion
  have inside := spells_intercalate comma (fun _ => apart_cons (by decide)) each
  rw [← String.toList_intercalate] at inside
  exact (opens.append_spells inside).append_closes ends apart

mutual

/-- **A value on one line is cut into its words.** -/
theorem spells_compact : ∀ j : Json, j.Plain → Spells j.compact.toList j.words
  | null, _ => by
    rw [compact]
    exact closes_null.spells
  | bool b, _ => by
    rw [compact]
    exact (closes_bool b).spells
  | number (.natural n), fits => spells_natural (by simpa [Plain] using fits)
  | number .other, no | number .tooLarge, no => absurd no (by simp [Plain])
  | string s, _ => by
    rw [compact]
    exact (closes_quote s).spells
  | array items, plain => by
    have each := spells_compactItems items (by simpa [Plain] using plain)
    have whole := closes_listed
      (closes_symbol '[' (by decide) (fun _ => rfl) Token.noConfusion)
      (closes_symbol ']' (by decide) (fun _ => rfl) Token.noConfusion)
      (fun _ => apart_cons (by decide)) each
    rw [compact, words]
    simpa using whole.spells
  | object members, plain => by
    have each := spells_compactMembers members (by simpa [Plain] using plain)
    have whole := closes_listed
      (closes_symbol '\x7b' (by decide) (fun _ => rfl) Token.noConfusion)
      (closes_symbol '\x7d' (by decide) (fun _ => rfl) Token.noConfusion)
      (fun _ => apart_cons (by decide)) each
    rw [compact, words]
    simpa using whole.spells

theorem spells_compactItems : ∀ items : List Json, AllPlain items →
    List.Forall₂ Spells ((compactItems items).map String.toList) (itemWords items)
  | [], _ => by
    rw [compactItems, itemWords]
    exact .nil
  | j :: rest, plain => by
    rw [compactItems, itemWords, List.map_cons]
    rw [AllPlain] at plain
    exact .cons (spells_compact j plain.1) (spells_compactItems rest plain.2)

theorem spells_compactMembers : ∀ members : List (String × Json), AllMembersPlain members →
    List.Forall₂ Spells ((compactMembers members).map String.toList) (memberWords members)
  | [], _ => by
    rw [compactMembers, memberWords]
    exact .nil
  | (key, j) :: rest, plain => by
    rw [compactMembers, memberWords, List.map_cons]
    rw [AllMembersPlain] at plain
    refine .cons ?_ (spells_compactMembers rest plain.2)
    have colon : Closes ":".toList [.colon] :=
      closes_symbol ':' (by decide) (fun _ => rfl) Token.noConfusion
    rw [String.toList_append, String.toList_append]
    exact ((closes_quote key).append colon).append_spells (spells_compact j plain.1)

end

end CallGraph.Json
