/-! Lists of values under keys, the keys ascending and each there once. -/
namespace Transplant.Keyed

variable {α β : Type} {xs ys : List (String × α)}

def insert (key : String) (value : α) : List (String × α) → List (String × α)
  | [] => [(key, value)]
  | (k, v) :: rest =>
    if key < k then (key, value) :: (k, v) :: rest
    else if key = k then (key, value) :: rest
    else (k, v) :: insert key value rest

/-- Of values with one key the last stays. -/
def ofList (xs : List (String × α)) : List (String × α) :=
  xs.foldl (fun sorted x => insert x.1 x.2 sorted) []

def Ascending (xs : List (String × α)) : Prop := (xs.map Prod.fst).Pairwise (· < ·)

instance (xs : List (String × α)) : Decidable (Ascending xs) :=
  inferInstanceAs (Decidable (List.Pairwise _ _))

theorem lookup_insert_self (key : String) (value : α) (xs : List (String × α)) :
    (insert key value xs).lookup key = some value := by
  induction xs with
  | nil => simp [insert]
  | cons x rest ih =>
    obtain ⟨k, v⟩ := x
    rw [insert]
    split
    · simp
    · split
      · simp
      · rename_i different
        rw [List.lookup_cons, beq_false_of_ne different]
        exact ih

theorem lookup_insert_of_ne {k key : String} (h : k ≠ key) (value : α) (xs : List (String × α)) :
    (insert key value xs).lookup k = xs.lookup k := by
  have other : (k == key) = false := beq_false_of_ne h
  induction xs with
  | nil => rw [insert, List.lookup_cons, other]
  | cons x rest ih =>
    obtain ⟨k', v⟩ := x
    rw [insert]
    split
    · rw [List.lookup_cons, other]
    · split
      · rename_i same
        subst same
        rw [List.lookup_cons, List.lookup_cons, other]
      · rw [List.lookup_cons, List.lookup_cons, ih]

theorem Ascending.tail {x : String × α} {xs : List (String × α)} (h : Ascending (x :: xs)) :
    Ascending xs :=
  (List.pairwise_cons.mp h).2

theorem Ascending.least {x y : String × α} {xs : List (String × α)} (h : Ascending (x :: xs))
    (member : y ∈ xs) : x.1 < y.1 :=
  (List.pairwise_cons.mp h).1 y.1 (List.mem_map_of_mem member)

theorem mem_of_lookup {xs : List (String × α)} {key : String} {value : α}
    (h : xs.lookup key = some value) : (key, value) ∈ xs := by
  induction xs with
  | nil => cases h
  | cons x rest ih =>
    obtain ⟨k, v⟩ := x
    rw [List.lookup_cons] at h
    cases same : key == k with
    | true =>
      rw [same] at h
      obtain rfl := eq_of_beq same
      cases h
      exact List.mem_cons_self
    | false =>
      rw [same] at h
      exact List.mem_cons_of_mem _ (ih h)

theorem lookup_eq_some_iff {xs : List (String × α)} (distinct : (xs.map Prod.fst).Nodup) {key : String}
    {value : α} : xs.lookup key = some value ↔ (key, value) ∈ xs := by
  refine ⟨mem_of_lookup, fun member => ?_⟩
  induction xs with
  | nil => cases member
  | cons x rest ih =>
    obtain ⟨new, fewer⟩ := List.nodup_cons.mp distinct
    rw [List.lookup_cons]
    rcases List.mem_cons.mp member with rfl | later
    · simp
    · have different : key ≠ x.1 := fun same => new (List.mem_map.mpr ⟨_, later, same⟩)
      rw [beq_false_of_ne different]
      exact ih fewer later

theorem Ascending.lookup_of_mem {xs : List (String × α)} (h : Ascending xs) {x : String × α}
    (member : x ∈ xs) : xs.lookup x.1 = some x.2 :=
  (lookup_eq_some_iff (h.imp fun less => String.ne_of_lt less)).mpr member

theorem mem_insert {key : String} {value : α} {xs : List (String × α)} {x : String × α}
    (member : x ∈ insert key value xs) : x = (key, value) ∨ x ∈ xs := by
  induction xs with
  | nil => simpa [insert] using member
  | cons y rest ih =>
    rw [insert] at member
    split at member
    · simpa using member
    · split at member
      · rcases List.mem_cons.mp member with here | later
        · exact .inl here
        · exact .inr (List.mem_cons_of_mem _ later)
      · rcases List.mem_cons.mp member with rfl | later
        · exact .inr List.mem_cons_self
        · exact (ih later).imp_right (List.mem_cons_of_mem _)

theorem Ascending.insert {xs : List (String × α)} (h : Ascending xs) (key : String) (value : α) :
    Ascending (insert key value xs) := by
  induction xs with
  | nil => exact List.pairwise_singleton _ _
  | cons y rest ih =>
    rw [Keyed.insert]
    split
    · rename_i before
      apply List.pairwise_cons.mpr
      refine ⟨?_, h⟩
      intro k member
      rcases List.mem_cons.mp member with rfl | later
      · exact before
      · obtain ⟨x, there, rfl⟩ := List.mem_map.mp later
        exact String.lt_trans before (h.least there)
    · split
      · rename_i same
        subst same
        exact h
      · apply List.pairwise_cons.mpr
        refine ⟨?_, ih h.tail⟩
        intro k member
        obtain ⟨x, there, rfl⟩ := List.mem_map.mp member
        rcases mem_insert there with rfl | later
        · change y.1 < key
          grind
        · exact h.least later

/-- Ascending lists hold the same values under the same keys only if they are the same. -/
theorem Ascending.ext {xs ys : List (String × α)} (hx : Ascending xs) (hy : Ascending ys)
    (same : ∀ key, xs.lookup key = ys.lookup key) : xs = ys := by
  have subset : ∀ {xs ys : List (String × α)}, Ascending xs →
      (∀ key, xs.lookup key = ys.lookup key) → ∀ x ∈ xs, x ∈ ys := by
    intro xs ys hx same x member
    apply mem_of_lookup
    rw [← same]
    exact hx.lookup_of_mem member
  have nodup : ∀ {xs : List (String × α)}, Ascending xs → xs.Nodup := by
    intro xs h
    apply List.Pairwise.imp _ (List.pairwise_map.mp h)
    rintro a b less rfl
    exact String.lt_irrefl _ less
  have perm : xs.Perm ys := (List.perm_ext_iff_of_nodup (nodup hx) (nodup hy)).mpr fun x =>
    ⟨subset hx same x, subset hy (fun key => (same key).symm) x⟩
  apply perm.eq_of_pairwise _ (List.pairwise_map.mp hx) (List.pairwise_map.mp hy)
  intro a b _ _ less more
  exact absurd more (String.lt_asymm less)

theorem ascending_foldl {acc : List (String × α)} (ascending : Ascending acc) (xs : List (String × α)) :
    Ascending (xs.foldl (fun sorted x => insert x.1 x.2 sorted) acc) := by
  induction xs generalizing acc with
  | nil => exact ascending
  | cons x xs ih => exact ih (ascending.insert x.1 x.2)

theorem ascending_ofList (xs : List (String × α)) : Ascending (ofList xs) :=
  ascending_foldl (show Ascending [] from .nil) xs

theorem mem_foldl_insert {acc : List (String × α)} {x : String × α}
    (member : x ∈ xs.foldl (fun sorted y => insert y.1 y.2 sorted) acc) : x ∈ acc ∨ x ∈ xs := by
  induction xs generalizing acc with
  | nil => exact .inl member
  | cons y xs ih =>
    rcases ih member with early | later
    · exact (mem_insert early).elim (fun here => .inr (here ▸ List.mem_cons_self)) .inl
    · exact .inr (List.mem_cons_of_mem y later)

theorem mem_of_mem_ofList {x : String × α} (member : x ∈ ofList xs) : x ∈ xs :=
  (mem_foldl_insert member).resolve_left List.not_mem_nil

theorem lookup_eq_none {key : String} (new : key ∉ xs.map Prod.fst) : xs.lookup key = none := by
  cases found : xs.lookup key with
  | none => rfl
  | some value => exact absurd (List.mem_map_of_mem (mem_of_lookup found)) new

theorem lookup_foldl_insert (distinct : (xs.map Prod.fst).Nodup) (acc : List (String × α)) (key : String) :
    (xs.foldl (fun sorted x => insert x.1 x.2 sorted) acc).lookup key =
      (xs.lookup key).or (acc.lookup key) := by
  induction xs generalizing acc with
  | nil => rfl
  | cons x xs ih =>
    obtain ⟨new, fewer⟩ := List.nodup_cons.mp distinct
    rw [List.foldl_cons, ih fewer, List.lookup_cons]
    by_cases same : key = x.1
    · subst same
      rw [lookup_insert_self, lookup_eq_none new, beq_self_eq_true]
      rfl
    · rw [lookup_insert_of_ne same, beq_false_of_ne same]

/-- Where each key is there once, sorting keeps what is under it. -/
theorem lookup_ofList (distinct : (xs.map Prod.fst).Nodup) (key : String) :
    (ofList xs).lookup key = xs.lookup key := by
  rw [ofList, lookup_foldl_insert distinct, List.lookup_nil, Option.or_none]

/-- The order of entries with different keys does not matter. -/
theorem lookup_perm (distinct : (xs.map Prod.fst).Nodup) (perm : xs.Perm ys) (key : String) :
    xs.lookup key = ys.lookup key := by
  have distinct' : (ys.map Prod.fst).Nodup := (perm.map Prod.fst).nodup_iff.mp distinct
  ext value
  rw [lookup_eq_some_iff distinct, lookup_eq_some_iff distinct', perm.mem_iff]

theorem lookup_map (f : α → β) (xs : List (String × α)) (key : String) :
    (xs.map fun x => (x.1, f x.2)).lookup key = (xs.lookup key).map f := by
  induction xs with
  | nil => rfl
  | cons x rest ih =>
    rw [List.map_cons, List.lookup_cons, List.lookup_cons, ih]
    cases key == x.1 <;> rfl

end Transplant.Keyed
