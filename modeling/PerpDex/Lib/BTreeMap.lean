import Mathlib

/-! Ordered maps as key-sorted entry lists, with the operations of a B-tree map.
The sortedness proof travels with the entries, so iteration order is key order by
construction and an operation that would break it cannot be written.
-/

/-- A finite map over a linear order: its bindings in strictly increasing key order. -/
structure BTreeMap (κ ν : Type) [LinearOrder κ] where
  entries : List (κ × ν)
  sorted : entries.Pairwise (fun left right => left.1 < right.1)

namespace BTreeMap

variable {κ ν μ : Type} [LinearOrder κ]

instance [DecidableEq ν] : DecidableEq (BTreeMap κ ν) := fun left right =>
  decidable_of_iff (left.entries = right.entries)
    ⟨fun same => by cases left; cases right; cases same; rfl, fun same => same ▸ rfl⟩

@[ext]
theorem ext {left right : BTreeMap κ ν} (same : left.entries = right.entries)
    : left = right := by
  cases left
  cases right
  cases same
  rfl

def empty : BTreeMap κ ν := ⟨[], .nil⟩

def keys (map : BTreeMap κ ν) : List κ := map.entries.map Prod.fst

def values (map : BTreeMap κ ν) : List ν := map.entries.map Prod.snd

def get? (map : BTreeMap κ ν) (key : κ) : Option ν := map.entries.lookup key

/-- Rewrite the binding of `key`, or create it, by a function of the old binding. -/
def upsertEntries (key : κ) (update : Option ν → ν) : List (κ × ν) → List (κ × ν)
  | [] => [(key, update none)]
  | entry :: rest =>
      if key < entry.1 then (key, update none) :: entry :: rest
      else if key = entry.1 then (entry.1, update (some entry.2)) :: rest
      else entry :: upsertEntries key update rest

/-- Rewrite every value in place; keys and their order are untouched. -/
def mapEntries (update : κ → ν → ν) (entries : List (κ × ν)) : List (κ × ν) :=
  entries.map (fun entry => (entry.1, update entry.1 entry.2))

/-- An upserted list binds the key itself or keys of the old list, by recursion over it. -/
theorem mem_upsertEntries {key : κ} {update : Option ν → ν} {entries : List (κ × ν)}
    {entry : κ × ν} (member : entry ∈ upsertEntries key update entries)
    : entry.1 = key ∨ entry ∈ entries := by
  induction entries with
  | nil =>
      simp only [upsertEntries, List.mem_singleton] at member
      exact Or.inl (member ▸ rfl)
  | cons head rest ih =>
      simp only [upsertEntries] at member
      split_ifs at member with below same
      · rcases List.mem_cons.mp member with fresh | old
        · exact Or.inl (fresh ▸ rfl)
        · exact Or.inr old
      · rcases List.mem_cons.mp member with changed | old
        · exact Or.inl (changed ▸ same.symm)
        · exact Or.inr (List.mem_cons_of_mem _ old)
      · rcases List.mem_cons.mp member with first | later
        · exact Or.inr (first ▸ List.mem_cons_self)
        · exact (ih later).imp_right (List.mem_cons_of_mem _)

/-- Upserting keeps keys strictly increasing.
Witness: the scan stops at the first key that is not below the new one.
-/
theorem sorted_upsertEntries (key : κ) (update : Option ν → ν) {entries : List (κ × ν)}
    (sorted : entries.Pairwise (fun left right => left.1 < right.1))
    : (upsertEntries key update entries).Pairwise
        (fun left right => left.1 < right.1) := by
  induction entries with
  | nil => simp [upsertEntries]
  | cons head rest ih =>
      obtain ⟨first, tail⟩ := List.pairwise_cons.mp sorted
      simp only [upsertEntries]
      split_ifs with below same
      · refine List.pairwise_cons.mpr ⟨?_, sorted⟩
        intro entry member
        rcases List.mem_cons.mp member with rfl | later
        · exact below
        · exact below.trans (first entry later)
      · exact List.pairwise_cons.mpr ⟨first, tail⟩
      · refine List.pairwise_cons.mpr ⟨?_, ih tail⟩
        intro entry member
        rcases mem_upsertEntries member with fresh | old
        · exact fresh ▸ lt_of_le_of_ne (not_lt.mp below) (Ne.symm same)
        · exact first entry old

def upsert (map : BTreeMap κ ν) (key : κ) (update : Option ν → ν) : BTreeMap κ ν :=
  ⟨upsertEntries key update map.entries, sorted_upsertEntries key update map.sorted⟩

/-- Rewrite all values in place, as iterating over mutable values does. -/
def mapValues (map : BTreeMap κ ν) (update : κ → ν → ν) : BTreeMap κ ν :=
  ⟨mapEntries update map.entries, by
    simpa only [mapEntries, List.pairwise_map] using map.sorted⟩

/-- Rewrite the value of `key` if it is bound. -/
def modify (map : BTreeMap κ ν) (key : κ) (update : ν → ν) : BTreeMap κ ν :=
  map.mapValues (fun current value => if current = key then update value else value)

/-- Keep the bindings that satisfy the test. -/
def retain (map : BTreeMap κ ν) (keep : κ → ν → Bool) : BTreeMap κ ν :=
  ⟨map.entries.filter (fun entry => keep entry.1 entry.2), map.sorted.filter _⟩

def insert (map : BTreeMap κ ν) (key : κ) (value : ν) : BTreeMap κ ν :=
  map.upsert key (fun _ => value)

def erase (map : BTreeMap κ ν) (key : κ) : BTreeMap κ ν :=
  map.retain (fun current _ => current ≠ key)

-----------------------------------------------------------------------------------------
-- Membership and lookup
-----------------------------------------------------------------------------------------

/-- Keys are pairwise distinct, since they strictly increase. -/
theorem keys_nodup (map : BTreeMap κ ν) : map.keys.Nodup :=
  List.pairwise_map.mpr (map.sorted.imp ne_of_lt)

/-- Lookup compares keys front to back. -/
theorem lookup_cons_ite (key : κ) (head : κ × ν) (rest : List (κ × ν))
    : (head :: rest).lookup key = if key = head.1 then some head.2 else rest.lookup key := by
  obtain ⟨current, value⟩ := head
  by_cases same : key = current
  · simp [same]
  · simp [List.lookup_cons, same, beq_eq_false_iff_ne.mpr same]

/-- In a list with distinct keys, lookup finds exactly the members. -/
theorem lookup_eq_some_iff {entries : List (κ × ν)}
    (distinct : (entries.map Prod.fst).Nodup) {key : κ} {value : ν}
    : entries.lookup key = some value ↔ (key, value) ∈ entries := by
  induction entries with
  | nil => simp
  | cons head rest ih =>
      obtain ⟨current, old⟩ := head
      simp only [List.map_cons, List.nodup_cons] at distinct
      by_cases same : key = current
      · subst same
        have absent : (key, value) ∉ rest := fun later =>
          distinct.1 (List.mem_map.mpr ⟨_, later, rfl⟩)
        simp [absent, eq_comm]
      · simp [lookup_cons_ite, same, ih distinct.2]

theorem get?_eq_some_iff {map : BTreeMap κ ν} {key : κ} {value : ν}
    : map.get? key = some value ↔ (key, value) ∈ map.entries :=
  lookup_eq_some_iff map.keys_nodup

/-- A map is determined by its lookups. -/
theorem ext_get? {left right : BTreeMap κ ν} (same : ∀ key, left.get? key = right.get? key)
    : left = right := by
  apply ext
  have irreflexive : Std.Irrefl (fun left right : κ × ν => left.1 < right.1) :=
    ⟨fun entry => lt_irrefl entry.1⟩
  refine left.sorted.eq_of_mem_iff right.sorted (fun entry => ?_)
  exact get?_eq_some_iff.symm.trans ((same entry.1).congr_left.trans get?_eq_some_iff)

@[simp]
theorem get?_empty (key : κ) : (empty : BTreeMap κ ν).get? key = none := rfl

@[simp]
theorem get?_upsert (map : BTreeMap κ ν) (key other : κ) (update : Option ν → ν)
    : (map.upsert key update).get? other
      = if other = key then some (update (map.get? key)) else map.get? other := by
  obtain ⟨entries, sorted⟩ := map
  simp only [upsert, get?]
  induction entries with
  | nil => simp [upsertEntries, lookup_cons_ite]
  | cons head rest ih =>
      obtain ⟨first, tail⟩ := List.pairwise_cons.mp sorted
      have later := ih tail
      rcases lt_trichotomy key head.1 with below | found | above
      · -- the new key sorts before everything, so it was unbound
        have absent : rest.lookup key = none := by
          refine List.lookup_eq_none_iff.mpr (fun entry member => ?_)
          have greater := below.trans (first entry member)
          simp [greater.ne]
        simp [upsertEntries, lookup_cons_ite, below, below.ne, absent]
      · by_cases asked : other = key
        · simp [upsertEntries, lookup_cons_ite, found, asked]
        · have apart : other ≠ head.1 := fun clash => asked (clash.trans found.symm)
          simp [upsertEntries, lookup_cons_ite, found, apart]
      · by_cases asked : other = key
        · simp [upsertEntries, lookup_cons_ite, above.not_gt, above.ne', asked]
          simpa [asked] using later
        · simp [upsertEntries, lookup_cons_ite, above.not_gt, above.ne', later, asked]

@[simp]
theorem get?_mapValues (map : BTreeMap κ ν) (update : κ → ν → ν) (key : κ)
    : (map.mapValues update).get? key = (map.get? key).map (update key) := by
  obtain ⟨entries, sorted⟩ := map
  simp only [mapValues, get?, mapEntries]
  clear sorted
  induction entries with
  | nil => rfl
  | cons head rest ih =>
      by_cases same : key = head.1
      · simp [lookup_cons_ite, same]
      · simp [lookup_cons_ite, same, ih]

@[simp]
theorem get?_modify (map : BTreeMap κ ν) (key other : κ) (update : ν → ν)
    : (map.modify key update).get? other
      = if other = key then (map.get? key).map update else map.get? other := by
  by_cases same : other = key
  · simp [modify, same]
  · simp [modify, same]

@[simp]
theorem get?_retain (map : BTreeMap κ ν) (keep : κ → ν → Bool) (key : κ)
    : (map.retain keep).get? key = (map.get? key).filter (keep key) := by
  ext value
  simp only [get?_eq_some_iff, retain, List.mem_filter, Option.filter_eq_some_iff]

@[simp]
theorem get?_insert (map : BTreeMap κ ν) (key other : κ) (value : ν)
    : (map.insert key value).get? other
      = if other = key then some value else map.get? other :=
  map.get?_upsert key other _

@[simp]
theorem get?_erase (map : BTreeMap κ ν) (key other : κ)
    : (map.erase key).get? other = if other = key then none else map.get? other := by
  by_cases same : other = key
  · simp [erase, same]
  · cases found : map.get? other <;> simp [erase, same, found]

theorem mem_keys_iff {map : BTreeMap κ ν} {key : κ} : key ∈ map.keys ↔ (map.get? key).isSome := by
  rw [Option.isSome_iff_exists, keys, List.mem_map]
  constructor
  · rintro ⟨entry, member, rfl⟩
    exact ⟨entry.2, get?_eq_some_iff.mpr member⟩
  · rintro ⟨value, found⟩
    exact ⟨(key, value), get?_eq_some_iff.mp found, rfl⟩

theorem mem_keys_insert {map : BTreeMap κ ν} {key other : κ} {value : ν}
    : other ∈ (map.insert key value).keys ↔ other = key ∨ other ∈ map.keys := by
  rw [mem_keys_iff, mem_keys_iff, get?_insert]
  by_cases same : other = key <;> simp [same]

theorem mem_keys_erase {map : BTreeMap κ ν} {key other : κ}
    : other ∈ (map.erase key).keys ↔ other ≠ key ∧ other ∈ map.keys := by
  rw [mem_keys_iff, mem_keys_iff, get?_erase]
  by_cases same : other = key <;> simp [same]

end BTreeMap
