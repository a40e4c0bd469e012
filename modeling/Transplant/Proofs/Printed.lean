import Transplant.Json.Printer
import Transplant.Proofs.Spelling

/-! The texts of values are texts of the documents that denote them, on one line and with one item a line.
The values are those without numbers. -/
namespace Transplant.Json

/-- A value without numbers. -/
inductive Worded : Json → Prop where
  | null : Worded null
  | bool (b : Bool) : Worded (bool b)
  | string (s : String) : Worded (string s)
  | array {items : List Json} (worded : ∀ x ∈ items, Worded x) : Worded (array items)
  | object {members : List (String × Json)} (worded : ∀ m ∈ members, Worded m.2) :
      Worded (object members)

open Document

theorem readUnits_digits {digits : List Char} {w x y z : Nat}
    (values : digits.map hexValue? = [some w, some x, some y, some z]) (cs : List Char) :
    readUnits ('\\' :: 'u' :: (digits ++ cs)) =
      (readUnits cs).map (prepend (unitOf (w * 4096 + x * 256 + y * 16 + z))) := by
  simp only [List.map_eq_cons_iff, List.map_eq_nil_iff] at values
  obtain ⟨a, _, rfl, first, b, _, rfl, second, c, _, rfl, third, d, _, rfl, fourth, rfl⟩ := values
  exact readUnits_code first second third fourth cs

theorem hexValues_of_control : ∀ n < 0x20,
    (hexDigits 4 n).map hexValue? = [some 0, some 0, some (n / 16), some (n % 16)] := by
  decide

theorem unitOf_of_control {n : Nat} (control : n < 0x20) :
    unitOf (0 * 4096 + 0 * 256 + n / 16 * 16 + n % 16) = .char (Char.ofNat n) := by
  have whole : 0 * 4096 + 0 * 256 + n / 16 * 16 + n % 16 = n := by omega
  have low : (decide (0xD800 ≤ n) && decide (n < 0xE000)) = false := by simp; omega
  rw [whole, unitOf, low]
  rfl

/-- An escaped character is read as that character. -/
theorem readUnits_escapeChar (c : Char) (cs : List Char) :
    readUnits (escapeChar c ++ cs) = (readUnits cs).map (prepend (.char c)) := by
  unfold escapeChar
  split_ifs with quote slash feed back tab bell form control
  · subst quote
    exact readUnits_escape rfl cs
  · subst slash
    exact readUnits_escape rfl cs
  · subst feed
    exact readUnits_escape rfl cs
  · subst back
    exact readUnits_escape rfl cs
  · subst tab
    exact readUnits_escape rfl cs
  · rw [← Char.ofNat_toNat c, bell]
    exact readUnits_escape rfl cs
  · rw [← Char.ofNat_toNat c, form]
    exact readUnits_escape rfl cs
  · have read := readUnits_digits (hexValues_of_control c.toNat control) cs
    rwa [unitOf_of_control control, Char.ofNat_toNat] at read
  · exact readUnits_plain quote slash control cs

theorem readUnits_escaped (cs rest : List Char) :
    readUnits (cs.flatMap escapeChar ++ '"' :: rest) = some (cs.map .char, rest) := by
  induction cs with
  | nil => rfl
  | cons c cs ih =>
    rw [List.flatMap_cons, List.append_assoc, readUnits_escapeChar, ih]
    rfl

theorem joinUnits_chars (cs : List Char) : joinUnits (cs.map .char) = some cs := by
  induction cs with
  | nil => rfl
  | cons c cs ih =>
    rw [List.map_cons, joinUnits, ih]
    rfl

/-- What stands behind the first quote of a quoted text. -/
def quoteTail (s : String) : List Char := s.toList.flatMap escapeChar ++ ['"']

theorem quote_eq (s : String) : quote s = '"' :: quoteTail s := rfl

theorem readString_quoteTail (s : String) : readString (quoteTail s) = some (some s, []) := by
  simp only [readString, quoteTail, readUnits_escaped, Option.bind_eq_bind, Option.bind_some,
    joinUnits_chars, Option.map_some, String.ofList_toList]
  rfl

theorem spells_string (s : String) : Spells (quote s) (.value (ofJson (.string s))) := by
  apply Spells.atom
  rw [quote_eq, readAtom, readString_quoteTail]
  rfl

/-- What follows the first of some parts: each behind a comma and a gap. -/
def others {α : Type} (gap : List Char) (chars : α → List Char) (xs : List α) : List Char :=
  xs.flatMap fun x => ',' :: (gap ++ chars x)

theorem others_cons {α : Type} (gap : List Char) (chars : α → List Char) (x : α) (xs : List α) :
    others gap chars (x :: xs) = ',' :: (gap ++ (chars x ++ others gap chars xs)) := by
  simp [others]

def entry (colon : List Char) (chars : Json → List Char) (m : String × Json) : List Char :=
  quote m.1 ++ ':' :: (colon ++ chars m.2)

section Layout

variable {chars : Json → List Char} {gap colon close : List Char} (space : Gap gap) (spaced : Gap colon)
  (closing : Gap close)

include space closing

theorem spells_items {x : Json} {xs : List Json}
    (each : ∀ y ∈ x :: xs, Spells (chars y) (.value (ofJson y))) :
    Spells (chars x ++ (others gap chars xs ++ (close ++ [']']))) (.items (ofItems (x :: xs))) := by
  induction xs generalizing x with
  | nil => exact .lastItem (each x List.mem_cons_self) closing
  | cons y ys ih =>
    rw [List.forall_mem_cons] at each
    have more := Spells.item each.1 gap_nil space (ih each.2)
    simpa [others_cons, ofItems] using more

theorem spells_array {x : Json} {xs : List Json}
    (each : ∀ y ∈ x :: xs, Spells (chars y) (.value (ofJson y))) :
    Spells ('[' :: (gap ++ (chars x ++ (others gap chars xs ++ (close ++ [']'])))))
      (.value (ofJson (.array (x :: xs)))) :=
  .array space (spells_items space closing each)

include spaced

theorem spells_members {m : String × Json} {ms : List (String × Json)}
    (each : ∀ n ∈ m :: ms, Spells (chars n.2) (.value (ofJson n.2))) :
    Spells (entry colon chars m ++ (others gap (entry colon chars) ms ++ (close ++ ['}'])))
      (.members (ofMembers (m :: ms))) := by
  induction ms generalizing m with
  | nil =>
    have last := Spells.lastMember (readString_quoteTail m.1) gap_nil spaced
      (each m List.mem_cons_self) closing
    simpa [entry, others, quote_eq, ofMembers] using last
  | cons n ms ih =>
    rw [List.forall_mem_cons] at each
    have more := Spells.member (readString_quoteTail m.1) gap_nil spaced each.1 gap_nil space (ih each.2)
    simpa [entry, others_cons, quote_eq, ofMembers] using more

theorem spells_object {m : String × Json} {ms : List (String × Json)}
    (each : ∀ n ∈ m :: ms, Spells (chars n.2) (.value (ofJson n.2))) :
    Spells ('{' :: (gap ++ (entry colon chars m ++
      (others gap (entry colon chars) ms ++ (close ++ ['}']))))) (.value (ofJson (.object (m :: ms)))) :=
  .object space (spells_members space spaced closing each)

end Layout

theorem compactItems_eq (xs : List Json) : compactItems xs = others [] compactChars xs := by
  induction xs with
  | nil => rfl
  | cons x xs ih => simp [compactItems, others_cons, ih]

theorem compactMembers_eq (ms : List (String × Json)) :
    compactMembers ms = others [] (entry [] compactChars) ms := by
  induction ms with
  | nil => rfl
  | cons m ms ih => simp [compactMembers, others_cons, entry, ih]

theorem prettyItems_eq (depth : Nat) (xs : List Json) :
    prettyItems depth xs = others (newline depth) (prettyChars depth) xs := by
  induction xs with
  | nil => rfl
  | cons x xs ih => simp [prettyItems, others_cons, ih]

theorem prettyMembers_eq (depth : Nat) (ms : List (String × Json)) :
    prettyMembers depth ms = others (newline depth) (entry [' '] (prettyChars depth)) ms := by
  induction ms with
  | nil => rfl
  | cons m ms ih => simp [prettyMembers, others_cons, entry, ih]

theorem gap_newline (depth : Nat) : Gap (newline depth) := by
  refine List.forall_mem_cons.mpr ⟨rfl, ?_⟩
  intro c member
  rw [(List.mem_replicate.mp member).2]
  rfl

theorem spells_compact {j : Json} (worded : Worded j) : Spells j.compactChars (.value (ofJson j)) := by
  induction worded with
  | null => exact .atom rfl
  | bool b => cases b <;> exact .atom rfl
  | string s => exact spells_string s
  | @array items _ ih =>
    cases items with
    | nil => exact .noItems gap_nil
    | cons x xs =>
      have spells := spells_array gap_nil gap_nil ih
      simpa [compactChars, compactItems_eq] using spells
  | @object members _ ih =>
    cases members with
    | nil => exact .noMembers gap_nil
    | cons m ms =>
      have spells := spells_object gap_nil gap_nil gap_nil ih
      simpa [compactChars, compactMembers_eq, entry] using spells

theorem spells_pretty {j : Json} (worded : Worded j) (depth : Nat) :
    Spells (prettyChars depth j) (.value (ofJson j)) := by
  induction worded generalizing depth with
  | null => exact .atom rfl
  | bool b => cases b <;> exact .atom rfl
  | string s => exact spells_string s
  | @array items _ ih =>
    cases items with
    | nil => exact .noItems gap_nil
    | cons x xs =>
      have spells := spells_array (gap_newline (depth + 1)) (gap_newline depth)
        fun y inside => ih y inside (depth + 1)
      simpa [prettyChars, prettyItems_eq] using spells
  | @object members _ ih =>
    cases members with
    | nil => exact .noMembers gap_nil
    | cons m ms =>
      have blank : Gap [' '] := by simp [Gap, isSpace]
      have spells := spells_object (gap_newline (depth + 1)) blank (gap_newline depth)
        fun n inside => ih n inside (depth + 1)
      simpa [prettyChars, prettyMembers_eq, entry] using spells

end Transplant.Json
