import Transplant.Json.Parts
import Transplant.Proofs.Printed

/-! Values read back from the documents that denote them: texts, what may be null, lists, and the parts of
a record by their names. -/
namespace Transplant.Json

namespace Document

theorem asNullable?_ofJson (value : Option String) :
    asNullable? asString? (ofJson (.ofOption value)) = some value := by
  cases value <;> rfl

theorem asString?_ofJson (s : String) : asString? (ofJson (.string s)) = some s := rfl

theorem asList?_ofJson {α : Type} {read : Document → Option α} {toJson : α → Json} {xs : List α}
    (each : ∀ x ∈ xs, read (ofJson (toJson x)) = some x) :
    asList? read (ofJson (.array (xs.map toJson))) = some xs := by
  rw [ofJson, asList?]
  induction xs with
  | nil => rfl
  | cons x xs ih =>
    rw [List.forall_mem_cons] at each
    rw [List.map_cons, ofItems, List.mapM_cons, each.1, ih each.2]
    rfl

theorem keyed?_ofMembers (members : List (String × Json)) :
    keyed? (ofMembers members) = some (members.map fun m => (m.1, ofJson m.2)) := by
  rw [keyed?]
  induction members with
  | nil => rfl
  | cons m members ih =>
    rw [ofMembers, List.mapM_cons, ih]
    rfl

/-- The parts of an object are those of its members. -/
theorem objectParts?_ofJson (names : List (List String)) (members : List (String × Json)) :
    objectParts? names (ofJson (.object members)) =
      names.mapM fun n => partOf? n (members.map fun m => (m.1, ofJson m.2)) := by
  rw [ofJson, objectParts?, keyed?_ofMembers]
  rfl

theorem parts?_ofJson (names : List (List String)) (members : List (String × Json)) :
    parts? names (ofJson (.object members)) =
      names.mapM fun n => partOf? n (members.map fun m => (m.1, ofJson m.2)) := by
  rw [← objectParts?_ofJson, ofJson, parts?]
  nofun

end Document

theorem worded_ofOption (value : Option String) : Worded (.ofOption value) := by
  cases value with
  | none => exact .null
  | some s => exact .string s

theorem worded_array {α : Type} {toJson : α → Json} (xs : List α) (each : ∀ x, Worded (toJson x)) :
    Worded (.array (xs.map toJson)) := by
  apply Worded.array
  intro j inside
  obtain ⟨x, _, rfl⟩ := List.mem_map.mp inside
  exact each x

namespace Document

theorem denoteItems?_isSome {items : List Json} (each : ∀ x ∈ items, (denote? (ofJson x)).isSome = true) :
    (denoteItems? (ofItems items)).isSome = true := by
  induction items with
  | nil => rfl
  | cons x xs ih =>
    rw [List.forall_mem_cons] at each
    obtain ⟨first, here⟩ := Option.isSome_iff_exists.mp each.1
    obtain ⟨rest, further⟩ := Option.isSome_iff_exists.mp (ih each.2)
    simp [ofItems, denoteItems?, here, further]

theorem denoteMembers?_isSome {members : List (String × Json)}
    (each : ∀ m ∈ members, (denote? (ofJson m.2)).isSome = true) :
    (denoteMembers? (ofMembers members)).isSome = true := by
  induction members with
  | nil => rfl
  | cons m ms ih =>
    rw [List.forall_mem_cons] at each
    obtain ⟨first, here⟩ := Option.isSome_iff_exists.mp each.1
    obtain ⟨rest, further⟩ := Option.isSome_iff_exists.mp (ih each.2)
    simp [ofMembers, denoteMembers?, here, further]

/-- Nothing that is written as a value is left without one. -/
theorem denote?_isSome {j : Json} (worded : Worded j) : (denote? (ofJson j)).isSome = true := by
  induction worded with
  | null => rfl
  | bool b => rfl
  | string s => rfl
  | array _ ih => simpa [ofJson, denote?] using denoteItems?_isSome ih
  | object _ ih => simpa [ofJson, denote?] using denoteMembers?_isSome ih

theorem itemsDepth_strings (xs : List String) : itemsDepth (ofItems (xs.map .string)) = 0 := by
  induction xs with
  | nil => rfl
  | cons x xs ih => simp [ofItems, ofJson, itemsDepth, depth, ih]

end Document

end Transplant.Json
