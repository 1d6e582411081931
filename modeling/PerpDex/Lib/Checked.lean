import Mathlib

/-! Computations that may return an error, or stop altogether where they access an array out of
its range or let a natural number become negative.
-/

namespace PerpDex.Checked

/-- An outcome, or nothing where the computation has stopped. -/
abbrev Run (ε α : Type) := ExceptT ε Option α

section Accesses

variable {ε α β : Type}

def crash : Run ε α := ExceptT.mk none

/-- A computation that cannot stop. -/
def settled (outcome : Except ε α) : Run ε α := ExceptT.mk (some outcome)

/-- `values[i]`. -/
def index (values : List α) (i : Nat) : Run ε α := ExceptT.mk (values[i]?.map .ok)

/-- `values[start..stop]`. -/
def subslice (values : List α) (start stop : Nat) : Run ε (List α) :=
  if start ≤ stop ∧ stop ≤ values.length then pure ((values.take stop).drop start) else crash

/-- An array of a fixed size from values of its length. -/
def copyFromSlice (size : Nat) (source : List α) : Run ε (List.Vector α size) :=
  if sized : source.length = size then pure ⟨source, sized⟩ else crash

theorem length_overwritten {size : Nat} (target : List.Vector α size) {start stop : Nat}
    {source : List α}
    (fits : start ≤ stop ∧ stop ≤ size ∧ source.length = stop - start)
    : (target.toList.take start ++ source ++ target.toList.drop stop).length = size := by
  have sized := target.toList_length
  rw [List.length_append, List.length_append, List.length_take, List.length_drop, sized]
  omega

/-- `target[start..stop].copy_from_slice(source)`. -/
def overwrite {size : Nat} (target : List.Vector α size) (start stop : Nat) (source : List α)
    : Run ε (List.Vector α size) :=
  if fits : start ≤ stop ∧ stop ≤ size ∧ source.length = stop - start then
    pure ⟨target.toList.take start ++ source ++ target.toList.drop stop,
      length_overwritten target fits⟩
  else crash

/-- `left - right` for sizes. -/
def minus (left right : Nat) : Run ε Nat := if right ≤ left then pure (left - right) else crash

theorem index_eq {values : List α} {i : Nat} {value : α} (found : values[i]? = some value)
    : (index values i : Run ε α) = settled (.ok value) := by
  rw [index, found]
  rfl

theorem index_eq_crash {values : List α} {i : Nat} (outside : values.length ≤ i)
    : (index values i : Run ε α) = crash := by
  rw [index, List.getElem?_eq_none outside]
  rfl

theorem subslice_eq {values : List α} {start stop : Nat} (ordered : start ≤ stop)
    (inside : stop ≤ values.length)
    : (subslice values start stop : Run ε (List α))
      = settled (.ok ((values.take stop).drop start)) :=
  if_pos ⟨ordered, inside⟩

theorem minus_eq {left right : Nat} (le : right ≤ left)
    : (minus left right : Run ε Nat) = settled (.ok (left - right)) :=
  if_pos le

theorem settled_ok_bind (value : α) (next : α → Run ε β)
    : settled (.ok value) >>= next = next value :=
  rfl

/-- Computations that cannot stop make up one that cannot. -/
theorem settled_bind (first : Except ε α) (next : α → Except ε β)
    : (settled first >>= fun value => settled (next value)) = settled (first >>= next) := by
  cases first with
  | error reason => rfl
  | ok value => rfl

end Accesses

/-- A loop over values for each of which its body cannot stop. -/
theorem foldlM_settled {ε α β : Type} {step : β → α → Run ε β} {quiet : β → α → Except ε β}
    {values : List α}
    (same : ∀ state, ∀ value ∈ values, step state value = settled (quiet state value))
    (start : β)
    : values.foldlM step start = settled (values.foldlM quiet start) := by
  induction values generalizing start with
  | nil => rfl
  | cons value rest ih =>
      have later := ih (fun state other member => same state other (.tail value member))
      rw [List.foldlM_cons, List.foldlM_cons, same start value List.mem_cons_self, ← settled_bind]
      exact congrArg (settled (quiet start value) >>= ·) (funext later)

theorem mapM_settled {ε α β : Type} {step : α → Run ε β} {quiet : α → Except ε β}
    {values : List α} (same : ∀ value ∈ values, step value = settled (quiet value))
    : values.mapM step = settled (values.mapM quiet) := by
  induction values with
  | nil => rfl
  | cons value rest ih =>
      have later := ih (fun other member => same other (.tail value member))
      rw [List.mapM_cons, List.mapM_cons, same value List.mem_cons_self, later, ← settled_bind]
      refine congrArg (settled (quiet value) >>= ·) (funext fun first => ?_)
      exact settled_bind (rest.mapM quiet) (fun others => .ok (first :: others))

end PerpDex.Checked
