import Transplant.Path
import Mathlib.Data.List.Lex
import Mathlib.Tactic.SplitIfs

/-! The order of names and paths. File systems compare names by their bytes, and paths component by
component. The bytes of a text are those of its characters, which the encoding keeps in their order, so
names in the order of their texts are in the order of their bytes as well. -/
namespace Transplant

def nameBytes (name : String) : List UInt8 := name.toUTF8.data.toList

theorem nameBytes_eq (name : String) : nameBytes name = name.toList.flatMap String.utf8EncodeChar :=
  Text.bytes_eq name

/-- The bytes of a smaller character are smaller, whatever follows. A longer encoding has a larger first
byte, and encodings of one length are compared digit by digit. -/
theorem utf8EncodeChar_lt {c d : Char} (less : c < d) (front back : List UInt8) :
    String.utf8EncodeChar c ++ front < String.utf8EncodeChar d ++ back := by
  have less : c.val.toNat < d.val.toNat := less
  have top : d.val.toNat < 0x110000 := by
    have valid := d.valid
    simp only [UInt32.isValidChar, Nat.isValidChar] at valid
    omega
  unfold String.utf8EncodeChar
  generalize c.val.toNat = m at less ⊢
  generalize d.val.toNat = n at less top ⊢
  simp only
  split_ifs <;>
    simp (disch := omega) only [List.cons_append, List.nil_append, List.cons_lt_cons_iff,
      UInt8.lt_iff_toNat_lt, ← UInt8.toNat_inj, UInt8.toNat_ofNat', Nat.mod_eq_of_lt] <;>
    omega

theorem utf8EncodeChar_ne_nil (c : Char) : String.utf8EncodeChar c ≠ [] := by
  unfold String.utf8EncodeChar
  simp only
  split_ifs <;> exact List.cons_ne_nil _ _

theorem flatMap_utf8EncodeChar_lt {as bs : List Char} (less : as < bs) :
    as.flatMap String.utf8EncodeChar < bs.flatMap String.utf8EncodeChar := by
  induction as generalizing bs with
  | nil =>
    cases bs with
    | nil => exact absurd less (List.lt_irrefl _)
    | cons d bs =>
      obtain ⟨b, rest, same⟩ := List.exists_cons_of_ne_nil (utf8EncodeChar_ne_nil d)
      rw [List.flatMap_nil, List.flatMap_cons, same]
      exact List.nil_lt_cons _ _
  | cons c as ih =>
    cases bs with
    | nil => cases less
    | cons d bs =>
      rw [List.flatMap_cons, List.flatMap_cons]
      rcases List.cons_lt_cons_iff.mp less with first | ⟨rfl, later⟩
      · exact utf8EncodeChar_lt first _ _
      · exact List.append_left_lt (ih later)

theorem nameBytes_lt_iff {a b : String} : nameBytes a < nameBytes b ↔ a < b := by
  have keeps : ∀ {a b : String}, a < b → nameBytes a < nameBytes b := by
    intro a b less
    rw [nameBytes_eq, nameBytes_eq]
    exact flatMap_utf8EncodeChar_lt less
  refine ⟨fun less => ?_, keeps⟩
  by_contra other
  by_cases larger : b < a
  · exact List.lt_asymm (keeps larger) less
  · obtain rfl := String.le_antisymm (String.not_lt.mp larger) (String.not_lt.mp other)
    exact List.lt_irrefl _ less

namespace Path

/-- Roots and dots stand in front of names. -/
def Component.rank : Component → Nat
  | root => 0
  | current => 1
  | parent => 2
  | normal _ => 3

def Component.Precedes (c d : Component) : Prop :=
  c.rank < d.rank ∨ c.rank = d.rank ∧ nameBytes c.text < nameBytes d.text

/-- The order of paths: by their first components that differ, and a path stands in front of what
lies below it. -/
def Precedes (p q : Path) : Prop := List.Lex Component.Precedes p.components q.components

theorem precedes_normal {a b : String} :
    (Component.normal a).Precedes (.normal b) ↔ a < b := by
  simp [Component.Precedes, Component.rank, Component.text, nameBytes_lt_iff]

theorem lex_normal {as bs : List String} (less : as < bs) :
    List.Lex Component.Precedes (as.map .normal) (bs.map .normal) := by
  induction less with
  | nil => exact .nil
  | rel first => exact .rel (precedes_normal.mpr first)
  | cons _ ih => exact .cons ih

end Path

end Transplant
