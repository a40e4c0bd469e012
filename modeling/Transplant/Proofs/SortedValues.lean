import Transplant.Json.Equality
import Transplant.Proofs.Nodes
import Transplant.Proofs.Printed

/-! Values with sorted members. Sorting keeps what is under each key, and values without numbers agree only
where they are the same. -/
namespace Transplant

namespace Json

theorem sortedItems_eq (items : List Json) : sortedItems items = items.map sorted := by
  induction items with
  | nil => rfl
  | cons x xs ih => rw [sortedItems, ih, List.map_cons]

theorem sortedMembers_eq (members : List (String × Json)) :
    sortedMembers members = members.map fun m => (m.1, m.2.sorted) := by
  induction members with
  | nil => rfl
  | cons m ms ih => rw [sortedMembers, ih, List.map_cons]

theorem get?_sorted {members : List (String × Json)} (distinct : (members.map Prod.fst).Nodup)
    (key : String) : (object members).sorted.get? key = (members.lookup key).map sorted := by
  have keys : (members.map fun m => (m.1, m.2.sorted)).map Prod.fst = members.map Prod.fst := by
    rw [List.map_map]
    rfl
  rw [sorted, get?, sortedMembers_eq, Keyed.lookup_ofList (keys ▸ distinct), Keyed.lookup_map]

theorem Worded.sorted {j : Json} (worded : Worded j) : Worded j.sorted := by
  induction worded with
  | null => exact .null
  | bool b => exact .bool b
  | string s => exact .string s
  | array _ ih =>
    rw [Json.sorted, sortedItems_eq]
    exact .array (List.forall_mem_map.mpr ih)
  | object _ ih =>
    rw [Json.sorted, sortedMembers_eq]
    apply Worded.object
    intro m inside
    obtain ⟨n, member, rfl⟩ := List.mem_map.mp (Keyed.mem_of_mem_ofList inside)
    exact ih n member

theorem null_agrees {j : Json} : null.agrees j = true ↔ j = null := by cases j <;> simp [agrees]

theorem Number.agrees_self (n : Number) : n.agrees n = true := by
  cases n <;> simp [Number.agrees, Decimal.Binary.agrees]

mutual

theorem agrees_self (j : Json) : j.agrees j = true := by
  cases j <;> simp [agrees, Number.agrees_self, itemsAgree_self, membersAgree_self]

theorem itemsAgree_self (xs : List Json) : itemsAgree xs xs = true := by
  cases xs <;> simp [itemsAgree, agrees_self, itemsAgree_self]

theorem membersAgree_self (xs : List (String × Json)) : membersAgree xs xs = true := by
  cases xs <;> simp [membersAgree, agrees_self, membersAgree_self]

end

mutual

theorem Worded.agrees_iff {a b : Json} (worded : Worded a) : a.agrees b = true ↔ a = b := by
  cases worded with
  | null => cases b <;> simp [agrees]
  | bool x => cases b <;> simp [agrees]
  | string s => cases b <;> simp [agrees]
  | array each => cases b <;> simp [agrees, Worded.itemsAgree_iff each]
  | object each => cases b <;> simp [agrees, Worded.membersAgree_iff each]

theorem Worded.itemsAgree_iff {xs ys : List Json} (each : ∀ x ∈ xs, Worded x) :
    itemsAgree xs ys = true ↔ xs = ys := by
  cases xs with
  | nil => cases ys <;> simp [itemsAgree]
  | cons x xs =>
    rw [List.forall_mem_cons] at each
    cases ys <;> simp [itemsAgree, Worded.agrees_iff each.1, Worded.itemsAgree_iff each.2]

theorem Worded.membersAgree_iff {xs ys : List (String × Json)} (each : ∀ m ∈ xs, Worded m.2) :
    membersAgree xs ys = true ↔ xs = ys := by
  cases xs with
  | nil => cases ys <;> simp [membersAgree]
  | cons m ms =>
    rw [List.forall_mem_cons] at each
    cases ys <;>
      simp [membersAgree, Worded.agrees_iff each.1, Worded.membersAgree_iff each.2, Prod.ext_iff]

end

end Json

end Transplant
