import Mathlib

/-! How many different values a list has, and how many entries a cover of them allows. -/

namespace PerpDex.Distinct

variable {α β : Type} [DecidableEq β]

/-- All values are different exactly if there are as many as entries. -/
theorem length_dedup_eq_iff {items : List β} : items.dedup.length = items.length ↔ items.Nodup := by
  rw [← List.dedup_eq_self]
  exact ⟨(List.dedup_sublist items).eq_of_length, congrArg List.length⟩

/-- A conversion that keeps the values apart keeps their number. -/
theorem length_dedup_map {γ : Type} [DecidableEq γ] {items : List β} {convert : β → γ}
    (injective : Set.InjOn convert {item | item ∈ items})
    : (items.map convert).dedup.length = items.dedup.length := by
  have image : (items.map convert).toFinset = items.toFinset.image convert := by
    ext value
    simp
  have apart : Set.InjOn convert items.toFinset := by
    rwa [List.coe_toFinset]
  rw [← List.card_toFinset, ← List.card_toFinset, image, Finset.card_image_of_injOn apart]

omit [DecidableEq β] in
/-- Values of a list are values of some of its entries, one each. -/
theorem exists_map_eq {items : List α} {value : α → β} {values : List β}
    (each : ∀ result ∈ values, result ∈ items.map value)
    : ∃ chosen : List α, (∀ item ∈ chosen, item ∈ items) ∧ chosen.map value = values := by
  induction values with
  | nil => exact ⟨[], fun _ member => (List.not_mem_nil member).elim, rfl⟩
  | cons result rest ih =>
      obtain ⟨chosen, inside, mapped⟩ :=
        ih (fun other member => each other (List.mem_cons_of_mem result member))
      obtain ⟨item, member, same⟩ := List.mem_map.mp (each result List.mem_cons_self)
      refine ⟨item :: chosen, fun other given => ?_, by rw [List.map_cons, same, mapped]⟩
      rcases List.mem_cons.mp given with rfl | later
      · exact member
      · exact inside other later

/-- A number of entries have different values exactly if there are that many values. -/
theorem exists_distinct_iff {items : List α} {value : α → β} {count : Nat}
    : (∃ chosen : List α, count ≤ chosen.length ∧ (∀ item ∈ chosen, item ∈ items)
        ∧ (chosen.map value).Nodup)
      ↔ count ≤ (items.map value).dedup.length := by
  constructor
  · intro given
    obtain ⟨chosen, enough, inside, distinct⟩ := given
    have included : chosen.map value ⊆ (items.map value).dedup := by
      intro result member
      obtain ⟨item, chosenItem, same⟩ := List.mem_map.mp member
      exact List.mem_dedup.mpr (List.mem_map.mpr ⟨item, inside item chosenItem, same⟩)
    have bound := (List.subperm_of_subset distinct included).length_le
    rw [List.length_map] at bound
    exact enough.trans bound
  · intro enough
    have each : ∀ result ∈ (items.map value).dedup, result ∈ items.map value :=
      fun result member => List.mem_dedup.mp member
    obtain ⟨chosen, inside, mapped⟩ := exists_map_eq each
    refine ⟨chosen, ?_, inside, ?_⟩
    · have size := congrArg List.length mapped
      rw [List.length_map] at size
      rw [size]
      exact enough
    · rw [mapped]
      exact List.nodup_dedup _

/-- Entries have no more values than keys if the key determines the value. -/
theorem length_dedup_le {γ : Type} [DecidableEq γ] {items : List α} {value : α → β} {key : α → γ}
    (determined : ∀ left ∈ items, ∀ right ∈ items, key left = key right → value left = value right)
    : (items.map value).dedup.length ≤ (items.map key).dedup.length := by
  obtain ⟨chosen, enough, inside, distinct⟩ := exists_distinct_iff.mpr (le_refl
    (items.map value).dedup.length)
  refine exists_distinct_iff.mp ⟨chosen, enough, inside, ?_⟩
  rw [List.Nodup, List.pairwise_map] at distinct ⊢
  refine distinct.imp_of_mem (fun leftMember rightMember different same => ?_)
  exact different (determined _ (inside _ leftMember) _ (inside _ rightMember) same)

/-- Where every counted entry is in one of several parts, there are no more of them than the
parts count together.
-/
theorem countP_le_sum {ι : Type} {items : List α} {test : α → Bool} {indices : List ι}
    {part : ι → α → Bool}
    (covers
      : ∀ item ∈ items, test item = true → ∃ index ∈ indices, part index item = true)
    : items.countP test ≤ (indices.map (fun index => items.countP (part index))).sum := by
  induction items with
  | nil => exact Nat.zero_le _
  | cons item rest ih =>
      have later := ih (fun other member => covers other (List.mem_cons_of_mem item member))
      have here : (if test item = true then 1 else 0)
          ≤ (indices.map (fun index => if part index item = true then 1 else 0)).sum := by
        split_ifs with counted
        · obtain ⟨index, member, inside⟩ := covers item List.mem_cons_self counted
          refine List.single_le_sum (fun _ _ => Nat.zero_le _) 1 ?_
          exact List.mem_map.mpr ⟨index, member, if_pos inside⟩
        · exact Nat.zero_le _
      simp only [List.countP_cons, List.sum_map_add]
      exact Nat.add_le_add later here

omit [DecidableEq β] in
/-- Among items of different keys, a filter keeps the one of a key or leaves none. -/
theorem find?_filter_key {κ : Type} [DecidableEq κ] {key : α → κ} {items : List α}
    (distinct : (items.map key).Nodup) (keep : α → Bool) (value : κ)
    : (items.filter keep).find? (fun item => key item = value)
      = (items.find? (fun item => key item = value)).filter keep := by
  induction items with
  | nil => rfl
  | cons item rest ih =>
      obtain ⟨fresh, tail⟩ := List.nodup_cons.mp distinct
      have later := ih tail
      by_cases same : key item = value
      · have missing : rest.find? (fun other => key other = value) = none := by
          refine List.find?_eq_none.mpr (fun other member clash => fresh ?_)
          exact List.mem_map.mpr ⟨other, member, (of_decide_eq_true clash).trans same.symm⟩
        rw [missing, Option.filter_none] at later
        rw [List.find?_cons_of_pos (by simpa using same)]
        cases kept : keep item with
        | false =>
            rw [List.filter_cons_of_neg (by simp [kept]), later, Option.filter_some, kept]
            rfl
        | true =>
            rw [List.filter_cons_of_pos kept, List.find?_cons_of_pos (by simpa using same),
              Option.filter_some, if_pos kept]
      · rw [List.find?_cons_of_neg (by simpa using same), ← later]
        cases kept : keep item with
        | false => rw [List.filter_cons_of_neg (by simp [kept])]
        | true =>
            rw [List.filter_cons_of_pos kept, List.find?_cons_of_neg (by simpa using same)]

omit [DecidableEq β] in
/-- Among items of different keys, a fold that only the item of one key bears on. -/
theorem foldl_at_key {κ σ : Type} [DecidableEq κ] {key : α → κ} {items : List α}
    (distinct : (items.map key).Nodup) (value : κ) (step : σ → α → σ)
    (others : ∀ item ∈ items, key item ≠ value → ∀ state, step state item = state) (state : σ)
    : items.foldl step state
      = (items.find? (fun item => key item = value)).elim state (step state) := by
  induction items generalizing state with
  | nil => rfl
  | cons item rest ih =>
      obtain ⟨fresh, tail⟩ := List.nodup_cons.mp distinct
      have later := ih tail (fun other member => others other (List.mem_cons_of_mem item member))
      by_cases same : key item = value
      · have none : rest.find? (fun other => key other = value) = none := by
          refine List.find?_eq_none.mpr (fun other member clash => fresh ?_)
          exact List.mem_map.mpr ⟨other, member, (of_decide_eq_true clash).trans same.symm⟩
        rw [List.foldl_cons, later, none, List.find?_cons_of_pos (by simpa using same)]
        rfl
      · rw [List.foldl_cons, others item List.mem_cons_self same, later,
          List.find?_cons_of_neg (by simpa using same)]

end PerpDex.Distinct
