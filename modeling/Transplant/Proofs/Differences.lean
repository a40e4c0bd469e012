import Transplant.Proofs.ApplicationText
import Transplant.Proofs.Ownership
import Transplant.Proofs.PlanText
import Transplant.Proofs.SortedValues

/-! The changed fields between two values. Putting the new values of some keys over the old ones, with null
under the keys that are left, gives the new value just if all changed fields are among them. Between the
states before and after a stage they are the fields that the stage owns, as far as they differ. -/
namespace Transplant

open Keyed (Ascending)

namespace Json

def overwrite (keys : List String) (old new : List (String × Json)) : List (String × Json) :=
  keys.foldl (fun members key =>
    match new.lookup key with
    | some value => Keyed.insert key value members
    | none => members) old

def fill (keys : List String) (members : List (String × Json)) : List (String × Json) :=
  keys.foldl (fun members key =>
    if (members.lookup key).isSome then members else Keyed.insert key .null members) members

/-- The new values of some keys over the old ones, and null under all other new keys. -/
def patched (keys : List String) (old new : List (String × Json)) : List (String × Json) :=
  fill (new.map Prod.fst) (overwrite keys old new)

variable {keys : List String} {old new members : List (String × Json)}

theorem ascending_overwrite (ascending : Ascending old) (keys : List String)
    (new : List (String × Json)) : Ascending (overwrite keys old new) := by
  rw [overwrite]
  induction keys generalizing old with
  | nil => exact ascending
  | cons key keys ih =>
    apply ih
    dsimp only
    split
    · exact ascending.insert key _
    · exact ascending

theorem ascending_fill (ascending : Ascending members) (keys : List String) :
    Ascending (fill keys members) := by
  rw [fill]
  induction keys generalizing members with
  | nil => exact ascending
  | cons key keys ih =>
    apply ih
    dsimp only
    split
    · exact ascending
    · exact ascending.insert key _

theorem lookup_overwrite (keys : List String) (old new : List (String × Json)) (key : String) :
    (overwrite keys old new).lookup key =
      if key ∈ keys then (new.lookup key).or (old.lookup key) else old.lookup key := by
  rw [overwrite]
  induction keys generalizing old with
  | nil => rfl
  | cons first keys ih =>
    rw [List.foldl_cons, ih]
    cases value : new.lookup first with
    | none =>
      by_cases same : key = first
      · subst same
        simp [value]
      · simp [same]
    | some v =>
      by_cases same : key = first
      · subst same
        simp [value, Keyed.lookup_insert_self]
      · simp [same, Keyed.lookup_insert_of_ne same]

theorem lookup_fill (keys : List String) (members : List (String × Json)) (key : String) :
    (fill keys members).lookup key =
      (members.lookup key).or (if key ∈ keys then some .null else none) := by
  rw [fill]
  induction keys generalizing members with
  | nil => simp
  | cons first keys ih =>
    rw [List.foldl_cons, ih]
    cases value : members.lookup first with
    | none =>
      by_cases same : key = first
      · subst same
        simp [value, Keyed.lookup_insert_self]
      · simp [same, Keyed.lookup_insert_of_ne same]
    | some v =>
      by_cases same : key = first
      · subst same
        simp [value]
      · simp [same]

/-- The value that a key has in the old value, where a missing key counts as null. -/
def before (old : List (String × Json)) (key : String) : Json := (old.lookup key).getD .null

/-- A new member, or the old value of its key. -/
def chosen (keys : List String) (old : List (String × Json)) (m : String × Json) : String × Json :=
  (m.1, if m.1 ∈ keys then m.2 else before old m.1)

theorem chosen_keys (keys : List String) (old new : List (String × Json)) :
    (new.map (chosen keys old)).map Prod.fst = new.map Prod.fst := by
  rw [List.map_map]
  rfl

theorem patched_eq (old_ascending : Ascending old) (new_ascending : Ascending new)
    (within : ∀ key ∈ old.map Prod.fst, key ∈ new.map Prod.fst) (keys : List String) :
    patched keys old new = new.map (chosen keys old) := by
  have ascending : Ascending (new.map (chosen keys old)) := by
    rw [Ascending, chosen_keys]
    exact new_ascending
  apply (ascending_fill (ascending_overwrite old_ascending keys new) _).ext ascending
  intro key
  rw [lookup_fill, lookup_overwrite]
  by_cases inside : key ∈ new.map Prod.fst
  · obtain ⟨m, member, rfl⟩ := List.mem_map.mp inside
    have value : (new.map (chosen keys old)).lookup m.1 = some (chosen keys old m).2 :=
      ascending.lookup_of_mem (List.mem_map_of_mem member)
    rw [value, new_ascending.lookup_of_mem member, if_pos inside, chosen, before]
    by_cases put : m.1 ∈ keys
    · simp [put]
    · cases old.lookup m.1 <;> simp [put]
  · have nowhere : (new.map (chosen keys old)).lookup key = none :=
      Keyed.lookup_eq_none (by rwa [chosen_keys])
    rw [nowhere, Keyed.lookup_eq_none inside, Keyed.lookup_eq_none (mt (within key) inside), if_neg inside]
    simp

theorem membersAgree_map (f : String × Json → Json) (members : List (String × Json)) :
    membersAgree (members.map fun m => (m.1, f m)) members = true ↔
      ∀ m ∈ members, (f m).agrees m.2 = true := by
  induction members with
  | nil => simp [membersAgree]
  | cons m ms ih => simp [membersAgree, ih]

end Json

theorem Plan.toJson_worded (p : Plan) : p.toJson.Worded := by
  cases p with
  | structured apps => exact Plan.worded apps
  | raw text =>
    apply Json.Worded.object
    simp [Json.Worded.string]

theorem Build.Project.worded (p : Build.Project) : p.toJson.Worded := by
  have paths : ∀ paths : List Path, (Build.pathsToJson paths).Worded :=
    fun paths => Rails.worded_ofStrings (paths.map Path.text)
  have app : ∀ app : Build.BuiltApp, app.toJson.Worded := by
    intro app
    apply Json.Worded.object
    simp [Json.Worded.string, paths]
  apply Json.Worded.object
  simp [Json.Worded.string, Json.worded_array _ app, paths]

namespace Pipeline

open Json (before patched chosen)

variable {keys : List String} {old new : List (String × Json)}

theorem mem_changedFields {key : String} : key ∈ changedFields (some (.object old)) (.object new) ↔
    ∃ m ∈ new, (before old m.1).agrees m.2 = false ∧ m.1 = key := by
  simp [changedFields, membersOf, before, Json.get?, and_assoc]

theorem mem_changedFields_of_ascending (new_ascending : Ascending new) {key : String} :
    key ∈ changedFields (some (.object old)) (.object new) ↔
      ∃ value, new.lookup key = some value ∧ (before old key).agrees value = false := by
  rw [mem_changedFields]
  constructor
  · rintro ⟨m, member, differs, rfl⟩
    exact ⟨m.2, new_ascending.lookup_of_mem member, differs⟩
  · rintro ⟨value, found, differs⟩
    exact ⟨(key, value), Keyed.mem_of_lookup found, differs, rfl⟩

theorem changedFields_ascending (old : Option Json) (new_ascending : Ascending new) :
    (changedFields old (.object new)).Pairwise (· < ·) :=
  List.Pairwise.sublist (List.filter_sublist.map Prod.fst) new_ascending

/-- Some keys make up for the change just if all changed fields are among them. -/
theorem patched_agrees_iff (old_ascending : Ascending old) (new_ascending : Ascending new)
    (within : ∀ key ∈ old.map Prod.fst, key ∈ new.map Prod.fst) (keys : List String) :
    (Json.object (patched keys old new)).agrees (.object new) = true ↔
      changedFields (some (.object old)) (.object new) ⊆ keys := by
  rw [Json.patched_eq old_ascending new_ascending within, Json.agrees]
  have each := Json.membersAgree_map (fun m => if m.1 ∈ keys then m.2 else before old m.1) new
  refine each.trans ⟨?_, ?_⟩
  · intro agree key changed
    obtain ⟨m, member, differs, rfl⟩ := mem_changedFields.mp changed
    by_contra out
    have same := agree m member
    rw [if_neg out, differs] at same
    cases same
  · intro covers m member
    split
    · exact Json.agrees_self m.2
    · rename_i out
      by_contra differs
      exact out (covers (mem_changedFields.mpr ⟨m, member, by simpa using differs, rfl⟩))

theorem changedFields_eq_nil_iff (old_ascending : Ascending old) (new_ascending : Ascending new)
    (within : ∀ key ∈ old.map Prod.fst, key ∈ new.map Prod.fst) :
    changedFields (some (.object old)) (.object new) = [] ↔
      (∀ m ∈ old, ∃ value, new.lookup m.1 = some value ∧ m.2.agrees value = true) ∧
        ∀ m ∈ new, m.1 ∉ old.map Prod.fst → m.2 = .null := by
  have none : changedFields (some (.object old)) (.object new) = [] ↔
      ∀ m ∈ new, (before old m.1).agrees m.2 = true := by
    rw [List.eq_nil_iff_forall_not_mem]
    simp only [mem_changedFields]
    grind
  rw [none]
  constructor
  · intro agree
    constructor
    · intro m member
      obtain ⟨n, there, same⟩ := List.mem_map.mp (within m.1 (List.mem_map_of_mem member))
      refine ⟨n.2, same ▸ new_ascending.lookup_of_mem there, ?_⟩
      have value := agree n there
      rwa [before, same, old_ascending.lookup_of_mem member] at value
    · intro m member new_key
      have value := agree m member
      rw [before, Keyed.lookup_eq_none new_key] at value
      exact Json.null_agrees.mp value
  · rintro ⟨kept, nulls⟩ m member
    by_cases there : m.1 ∈ old.map Prod.fst
    · obtain ⟨n, old_member, same⟩ := List.mem_map.mp there
      obtain ⟨value, found, agree⟩ := kept n old_member
      rw [same, new_ascending.lookup_of_mem member] at found
      cases found
      rwa [before, ← same, old_ascending.lookup_of_mem old_member]
    · rw [before, Keyed.lookup_eq_none there, nulls m member there]
      rfl

def Slot.key : Slot → String
  | .inputRoot => "input_root"
  | .outputRoot => "output_root"
  | .outline => "outline"
  | .application => "source_model"
  | .summary => "summary"
  | .plan => "plan"
  | .projectRoot => "project_root"
  | .project => "generated"
  | .lastStage => "last_stage"
  | .lastResponse => "last_response"

def Slot.all : List Slot :=
  [.inputRoot, .outputRoot, .outline, .application, .summary, .plan, .projectRoot, .project, .lastStage,
    .lastResponse]

theorem Slot.mem_all (slot : Slot) : slot ∈ all := by cases slot <;> decide

namespace State

variable {s t : State} {slot : Slot} {key : String}

def valueAt (s : State) : Slot → Json
  | .inputRoot => .string s.inputRoot.text
  | .outputRoot => .string s.outputRoot.text
  | .outline => .ofOption s.outline
  | .application => optional Rails.Application.toJson s.application
  | .summary => .ofOption s.summary
  | .plan => optional Plan.toJson s.plan
  | .projectRoot => optional (fun p => .string p.text) s.projectRoot
  | .project => optional Build.Project.toJson s.project
  | .lastStage => optional (fun t => .string t.name) s.lastStage
  | .lastResponse => .ofOption s.lastResponse

def members (s : State) : List (String × Json) := Slot.all.map fun slot => (slot.key, s.valueAt slot)

theorem toJson_eq (s : State) : s.toJson = .object s.members := rfl

theorem members_keys (s : State) : s.members.map Prod.fst = Slot.all.map Slot.key := rfl

theorem members_distinct (s : State) : (s.members.map Prod.fst).Nodup := by
  rw [members_keys]
  decide

theorem get?_slot (s : State) (slot : Slot) :
    s.toJson.sorted.get? slot.key = some (s.valueAt slot).sorted := by
  have member : (slot.key, s.valueAt slot) ∈ s.members := List.mem_map_of_mem slot.mem_all
  rw [toJson_eq, Json.get?_sorted s.members_distinct,
    (Keyed.lookup_eq_some_iff s.members_distinct).mpr member, Option.map_some]

theorem get?_other (s : State) (other : ∀ slot : Slot, slot.key ≠ key) :
    s.toJson.sorted.get? key = none := by
  have out : key ∉ s.members.map Prod.fst := by
    rw [members_keys]
    intro inside
    obtain ⟨slot, _, same⟩ := List.mem_map.mp inside
    exact other slot same
  rw [toJson_eq, Json.get?_sorted s.members_distinct, Keyed.lookup_eq_none out, Option.map_none]

theorem worded_optional {α : Type} {toJson : α → Json} (worded : ∀ x, (toJson x).Worded) (x : Option α) :
    (optional toJson x).Worded := by
  cases x with
  | none => exact .null
  | some x => exact worded x

theorem exists_slot (differs : s.toJson.sorted.get? key ≠ t.toJson.sorted.get? key) :
    ∃ slot : Slot, slot.key = key := by
  by_contra none
  have other : ∀ slot : Slot, slot.key ≠ key := fun slot same => none ⟨slot, same⟩
  rw [s.get?_other other, t.get?_other other] at differs
  exact differs rfl

theorem worded_valueAt (s : State) (slot : Slot) : (s.valueAt slot).Worded := by
  cases slot with
  | inputRoot => exact .string _
  | outputRoot => exact .string _
  | outline => exact Json.worded_ofOption _
  | application => exact worded_optional Rails.Application.worded _
  | summary => exact Json.worded_ofOption _
  | plan => exact worded_optional Plan.toJson_worded _
  | projectRoot => exact worded_optional (fun _ => .string _) _
  | project => exact worded_optional Build.Project.worded _
  | lastStage => exact worded_optional (fun _ => .string _) _
  | lastResponse => exact Json.worded_ofOption _

theorem SameAt.valueAt (same : s.SameAt t slot) : t.valueAt slot = s.valueAt slot := by
  cases slot <;> simp only [State.valueAt] <;> rw [same]

def sortedMembers (s : State) : List (String × Json) := Keyed.ofList (Json.sortedMembers s.members)

theorem sorted_toJson (s : State) : s.toJson.sorted = .object s.sortedMembers := rfl

theorem ascending_sortedMembers (s : State) : Ascending s.sortedMembers := Keyed.ascending_ofList _

/-- Of two states the fields are reported that are written differently. -/
theorem mem_changedFields : key ∈ changedFields (some s.toJson.sorted) t.toJson.sorted ↔
    s.toJson.sorted.get? key ≠ t.toJson.sorted.get? key := by
  have changed : key ∈ changedFields (some s.toJson.sorted) t.toJson.sorted ↔
      ∃ value, t.toJson.sorted.get? key = some value ∧
        ((s.toJson.sorted.get? key).getD .null).agrees value = false :=
    mem_changedFields_of_ascending t.ascending_sortedMembers
  rw [changed]
  by_cases there : ∃ slot : Slot, slot.key = key
  · obtain ⟨slot, rfl⟩ := there
    have worded := (s.worded_valueAt slot).sorted
    rw [get?_slot, get?_slot, Option.getD_some, ne_eq, Option.some.injEq, ← worded.agrees_iff]
    simp
  · have other : ∀ slot : Slot, slot.key ≠ key := fun slot same => there ⟨slot, same⟩
    simp [get?_other _ other]

end State

/-- A field that differs behind a stage belongs to the stage, or is the note of the stage. -/
theorem StageRan.owner {name : String} {snapshots : Path} {stage : Stage} {s t : State} {status : Status}
    {calls : List Call} (ran : StageRan name snapshots stage s calls (.ok t, status)) {key : String}
    (differs : s.toJson.sorted.get? key ≠ t.toJson.sorted.get? key) :
    ∃ slot ∈ Slot.lastStage :: stage.owns, slot.key = key := by
  cases ran with
  | @passed calls next r worked =>
    have turned : Turned name ⟨stage, true⟩ s
        (calls ++ [snapshotCall snapshots stage (next.passed stage) r]) (next.passed stage) :=
      worked.turned_passed r
    obtain ⟨slot, rfl⟩ := State.exists_slot differs
    refine ⟨slot, ?_, rfl⟩
    by_contra other
    apply differs
    rw [State.get?_slot, State.get?_slot, (turned.others slot other).valueAt]

/-- Where no key is lost, the changed fields are a difference that is sound, complete and least: they ascend,
putting the new values of some keys over the old ones and null under all other new keys gives the new value
just if all of them are among the keys, and there are none just if the old values are kept and all that is
new is null. Between the states around a stage that passes they are the fields that differ, and all belong
to the stage or are its note. -/
theorem changed_fields_differ {σ : Type} (o : Outside σ) (name : String) (snapshots : Path) (stage : Stage)
    (s : State) (e : σ) :
    (∀ old new : List (String × Json), Ascending old → Ascending new →
      (∀ key ∈ old.map Prod.fst, key ∈ new.map Prod.fst) →
      (changedFields (some (.object old)) (.object new)).Pairwise (· < ·) ∧
      (∀ keys, (Json.object (patched keys old new)).agrees (.object new) = true ↔
        changedFields (some (.object old)) (.object new) ⊆ keys) ∧
      (changedFields (some (.object old)) (.object new) = [] ↔
        (∀ m ∈ old, ∃ value, new.lookup m.1 = some value ∧ m.2.agrees value = true) ∧
          ∀ m ∈ new, m.1 ∉ old.map Prod.fst → m.2 = .null)) ∧
    ∀ t status e' calls,
      ((o.sequencer name snapshots).runStage stage s).run (e, []) = ((.ok t, status), e', calls) →
      (changedFields (some s.toJson.sorted) t.toJson.sorted).Pairwise (· < ·) ∧
      ∀ key, (key ∈ changedFields (some s.toJson.sorted) t.toJson.sorted ↔
          s.toJson.sorted.get? key ≠ t.toJson.sorted.get? key) ∧
        (key ∈ changedFields (some s.toJson.sorted) t.toJson.sorted →
          ∃ slot ∈ Slot.lastStage :: stage.owns, slot.key = key) := by
  constructor
  · intro old new old_ascending new_ascending within
    exact ⟨changedFields_ascending _ new_ascending,
      patched_agrees_iff old_ascending new_ascending within,
      changedFields_eq_nil_iff old_ascending new_ascending within⟩
  · intro t status e' calls ran
    have stageRan := ((Sequencer.runStage_meets name snapshots stage s).of_run ran).2
    refine ⟨changedFields_ascending _ t.ascending_sortedMembers, fun key => ?_⟩
    exact ⟨State.mem_changedFields, fun changed => stageRan.owner (State.mem_changedFields.mp changed)⟩

def draftMembers : List (String × Json) := [("a", .number (.int 1)), ("b", .null), ("c", .string "x")]

def finalMembers : List (String × Json) :=
  [("a", .number (.int 1)), ("b", .array [.bool true]), ("c", .string "y"), ("d", .null)]

def planRun : (Outcome × Status) × World × List Call :=
  ((World.outside.sequencer "site" ⟨"logs"⟩).runStage .plan (State.fresh ⟨"in"⟩ ⟨"out"⟩)).run (counting, [])

theorem changed_fields_differ_plan :
    Ascending draftMembers ∧ Ascending finalMembers ∧
      (∀ key ∈ draftMembers.map Prod.fst, key ∈ finalMembers.map Prod.fst) ∧
      (Json.object (patched ["b", "c"] draftMembers finalMembers)).agrees (.object finalMembers) = true ∧
      (Json.object (patched ["c"] draftMembers finalMembers)).agrees (.object finalMembers) = false ∧
      ∃ t status w calls, planRun = ((.ok t, status), w, calls) ∧
        ∀ key ∈ changedFields (some (State.fresh ⟨"in"⟩ ⟨"out"⟩).toJson.sorted) t.toJson.sorted,
          key ∈ ["last_stage", "outline", "last_response"] := by
  have ascending : Ascending draftMembers ∧ Ascending finalMembers := by decide
  have within : ∀ key ∈ draftMembers.map Prod.fst, key ∈ finalMembers.map Prod.fst := by decide
  have went : planRun.1.1.isOk = true := by decide +kernel
  obtain ⟨objects, states⟩ := changed_fields_differ World.outside "site" ⟨"logs"⟩ .plan
    (State.fresh ⟨"in"⟩ ⟨"out"⟩) counting
  obtain ⟨_, patches, _⟩ := objects draftMembers finalMembers ascending.1 ascending.2 within
  have covered : (Json.object (patched ["b", "c"] draftMembers finalMembers)).agrees
      (.object finalMembers) = true := (patches _).mpr (by decide +kernel)
  have missed : (Json.object (patched ["c"] draftMembers finalMembers)).agrees
      (.object finalMembers) = false := by
    rw [Bool.eq_false_iff]
    exact mt (patches _).mp (by decide +kernel)
  rcases ran : planRun with ⟨⟨_ | t, status⟩, w, calls⟩
  · rw [ran] at went
    cases went
  · refine ⟨ascending.1, ascending.2, within, covered, missed, t, status, w, calls, rfl, ?_⟩
    intro key changed
    obtain ⟨slot, own, rfl⟩ := ((states t status w calls ran).2 key).2 changed
    have names : ∀ slot ∈ Slot.lastStage :: Stage.owns .plan,
        slot.key ∈ ["last_stage", "outline", "last_response"] := by decide
    exact names slot own

end Pipeline

end Transplant
