import Mathlib

/-! Taking apart computations that may fail. -/

namespace PerpDex

/-- `ok_or`: a missing value is an error. -/
def okOr {ε α : Type} (value : Option α) (missing : ε) : Except ε α :=
  match value with
  | some value => .ok value
  | none => .error missing

theorem okOr_eq_ok_iff {ε α : Type} {value : Option α} {missing : ε} {result : α}
    : okOr value missing = .ok result ↔ value = some result := by
  cases value with
  | none => exact ⟨fun failed => (by cases failed), fun failed => (by cases failed)⟩
  | some value =>
      constructor
      · intro same
        cases same
        rfl
      · intro same
        cases same
        rfl

/-- A sequence succeeds exactly if both of its steps do. -/
theorem Except.bind_eq_ok_iff {ε α β : Type} {first : Except ε α} {next : α → Except ε β}
    {result : β}
    : (first >>= next) = .ok result ↔ ∃ value, first = .ok value ∧ next value = .ok result := by
  cases first with
  | error reason => exact ⟨fun failed => (by cases failed), fun ⟨_, ok, _⟩ => (by cases ok)⟩
  | ok value =>
      constructor
      · exact fun succeeded => ⟨value, rfl, succeeded⟩
      · intro given
        rcases given with ⟨other, same, succeeded⟩
        rw [Except.ok.inj same]
        exact succeeded

/-- A converted result comes from a result. -/
theorem Except.map_eq_ok_iff {ε α β : Type} {action : Except ε α} {convert : α → β}
    {result : β}
    : action.map convert = .ok result ↔ ∃ value, action = .ok value ∧ convert value = result := by
  cases action with
  | error reason => exact ⟨fun failed => (by cases failed), fun ⟨_, ok, _⟩ => (by cases ok)⟩
  | ok value =>
      constructor
      · exact fun converted => ⟨value, rfl, Except.ok.inj converted⟩
      · intro given
        rcases given with ⟨other, same, converted⟩
        rw [Except.ok.inj same, ← converted]
        rfl

theorem Except.mapError_eq_ok_iff {ε δ α : Type} {action : Except ε α} {explain : ε → δ}
    {result : α}
    : action.mapError explain = .ok result ↔ action = .ok result := by
  cases action with
  | error reason => exact ⟨fun failed => (by cases failed), fun failed => (by cases failed)⟩
  | ok value => exact ⟨fun same => congrArg _ (Except.ok.inj same), fun same => by rw [same]; rfl⟩

/-- A traversal succeeds exactly if it does at every item. -/
theorem Except.mapM_eq_ok_iff {ε α β : Type} {read : α → Except ε β} {items : List α}
    {results : List β}
    : items.mapM read = .ok results
      ↔ List.Forall₂ (fun item result => read item = .ok result) items results := by
  induction items generalizing results with
  | nil =>
      rw [List.mapM_nil, List.forall₂_nil_left_iff]
      exact ⟨fun same => (Except.ok.inj same).symm, fun same => congrArg _ same.symm⟩
  | cons item rest ih =>
      rw [List.mapM_cons, Except.bind_eq_ok_iff, List.forall₂_cons_left_iff]
      constructor
      · intro traversed
        rcases traversed with ⟨first, head, traversed⟩
        obtain ⟨others, tail, same⟩ := Except.bind_eq_ok_iff.mp traversed
        exact ⟨first, others, head, ih.mp tail, (Except.ok.inj same).symm⟩
      · intro each
        rcases each with ⟨first, others, head, tail, rfl⟩
        exact ⟨first, head, Except.bind_eq_ok_iff.mpr ⟨others, ih.mpr tail, rfl⟩⟩

theorem Except.exists_mapM_eq_ok_iff {ε α β : Type} {read : α → Except ε β} {items : List α}
    : (∃ results, items.mapM read = .ok results)
      ↔ ∀ item ∈ items, ∃ result, read item = .ok result := by
  simp only [Except.mapM_eq_ok_iff]
  induction items with
  | nil => exact ⟨fun _ _ member => absurd member List.not_mem_nil, fun _ => ⟨[], .nil⟩⟩
  | cons item rest ih =>
      rw [List.forall_mem_cons, ← ih]
      constructor
      · intro each
        rcases each with ⟨results, all⟩
        cases all with
        | @cons _ first _ others head tail => exact ⟨⟨first, head⟩, others, tail⟩
      · intro each
        rcases each with ⟨⟨first, head⟩, others, tail⟩
        exact ⟨first :: others, .cons head tail⟩

end PerpDex
