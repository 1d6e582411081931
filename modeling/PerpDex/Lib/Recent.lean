import PerpDex.Lib.BTreeMap

/-! A memory of recent keys.
A key is stored with the time it was accepted and forgotten once it is as old as the time to
live. Asked in order of time, the memory accepts a key exactly if it has not accepted it within
the time to live.
-/

namespace PerpDex

structure Recent (κ : Type) [LinearOrder κ] where
  ttl : Nat
  seen : BTreeMap κ Nat

namespace Recent

variable {κ : Type} [LinearOrder κ]

def new (ttl : Nat) : Recent κ := ⟨ttl, .empty⟩

/-- What is not too old yet. -/
def forget (recent : Recent κ) (now : Nat) : BTreeMap κ Nat :=
  recent.seen.retain (fun _ seen => decide (now - seen < recent.ttl))

/-- Accept and store a key, unless it is stored already. -/
def mark (recent : Recent κ) (key : κ) (now : Nat) : Bool × Recent κ :=
  let kept := recent.forget now
  if (kept.get? key).isSome then (false, { recent with seen := kept })
  else (true, { recent with seen := kept.insert key now })

/-- Whether a history has not accepted a key within the time to live. -/
def isFresh (ttl : Nat) (accepted : List (κ × Nat)) (key : κ) (now : Nat) : Bool :=
  accepted.all (fun entry => decide (entry.1 = key → entry.2 + ttl ≤ now))

/-- A key is accepted again only after the time to live. -/
def Spaced (ttl : Nat) (accepted : List (κ × Nat)) : Prop :=
  accepted.Pairwise (fun earlier later => earlier.1 = later.1 → earlier.2 + ttl ≤ later.2)

/-- What the memory holds after a history that it last looked at some time ago: exactly the
accepted keys that were not too old then.
-/
structure Remembers (ttl : Nat) (accepted : List (κ × Nat)) (last : Nat) (recent : Recent κ)
    : Prop where
  ttlSame : recent.ttl = ttl
  past : ∀ entry ∈ accepted, entry.2 ≤ last
  spaced : Spaced ttl accepted
  stored_iff
    : ∀ key time, recent.seen.get? key = some time ↔ (key, time) ∈ accepted ∧ last < time + ttl

section Remembering

variable {ttl last now : Nat} {accepted : List (κ × Nat)} {recent : Recent κ}

theorem isFresh_iff {key : κ}
    : isFresh ttl accepted key now = true
      ↔ ∀ time, (key, time) ∈ accepted → time + ttl ≤ now := by
  simp only [isFresh, List.all_eq_true, decide_eq_true_eq]
  constructor
  · intro fresh time member
    exact fresh (key, time) member rfl
  · rintro fresh ⟨other, time⟩ member rfl
    exact fresh time member

theorem Remembers.initial (ttl last : Nat) : Remembers ttl [] last (new ttl : Recent κ) where
  ttlSame := rfl
  past := by simp
  spaced := List.Pairwise.nil
  stored_iff := by simp [new]

/-- Of what is accepted, the memory keeps what is not too old at a later time. -/
theorem Remembers.forget_iff (remembers : Remembers ttl accepted last recent)
    (later : last ≤ now) (key : κ) (time : Nat)
    : (recent.forget now).get? key = some time ↔ (key, time) ∈ accepted ∧ now < time + ttl := by
  rw [forget, BTreeMap.get?_retain, Option.filter_eq_some_iff, remembers.stored_iff,
    remembers.ttlSame, decide_eq_true_eq]
  constructor
  · rintro ⟨⟨member, -⟩, young⟩
    have before := remembers.past (key, time) member
    exact ⟨member, by omega⟩
  · rintro ⟨member, young⟩
    have before := remembers.past (key, time) member
    exact ⟨⟨member, by omega⟩, by omega⟩

/-- A key is accepted exactly if the history has not accepted it within the time to live. -/
theorem Remembers.mark_fst (remembers : Remembers ttl accepted last recent)
    (later : last ≤ now) (key : κ)
    : (recent.mark key now).1 = isFresh ttl accepted key now := by
  have held : ((recent.forget now).get? key).isSome = true
      ↔ ¬ isFresh ttl accepted key now = true := by
    rw [Option.isSome_iff_exists, isFresh_iff, not_forall]
    refine exists_congr (fun time => ?_)
    rw [remembers.forget_iff later, Classical.not_imp, not_le]
  simp only [mark]
  split_ifs with found
  · exact (Bool.eq_false_iff.mpr (held.mp found)).symm
  · exact (not_not.mp (mt held.mpr found)).symm

/-- The memory goes on remembering the longer history. -/
theorem Remembers.mark (remembers : Remembers ttl accepted last recent) (lives : 0 < ttl)
    (later : last ≤ now) (key : κ)
    : Remembers ttl
        (if isFresh ttl accepted key now then accepted ++ [(key, now)] else accepted) now
        (recent.mark key now).2 := by
  have answer := remembers.mark_fst later key
  have pastNow : ∀ entry ∈ accepted, entry.2 ≤ now :=
    fun entry member => (remembers.past entry member).trans later
  by_cases fresh : isFresh ttl accepted key now = true
  · have unseen : ¬ ((recent.forget now).get? key).isSome = true := by
      intro found
      simp [Recent.mark, found, fresh] at answer
    have older := isFresh_iff.mp fresh
    rw [if_pos fresh, Recent.mark, if_neg unseen]
    refine ⟨remembers.ttlSame, ?_, ?_, fun other time => ?_⟩
    · intro entry member
      rcases List.mem_append.mp member with old | new
      · exact pastNow entry old
      · rw [List.mem_singleton.mp new]
    · refine List.pairwise_append.mpr ⟨remembers.spaced, List.pairwise_singleton _ _, ?_⟩
      rintro ⟨other, time⟩ member final isFinal same
      rw [List.mem_singleton.mp isFinal] at same ⊢
      subst same
      exact older time member
    · rw [BTreeMap.get?_insert, List.mem_append, List.mem_singleton, Prod.mk.injEq]
      split_ifs with same
      · subst same
        constructor
        · intro stored
          cases stored
          exact ⟨.inr ⟨rfl, rfl⟩, by omega⟩
        · rintro ⟨old | ⟨-, rfl⟩, young⟩
          · have := older time old
            omega
          · rfl
      · rw [remembers.forget_iff later]
        simp only [same, false_and, or_false]
  · have seen : ((recent.forget now).get? key).isSome = true := by
      by_contra unseen
      simp [Recent.mark, unseen, fresh] at answer
    rw [if_neg fresh, Recent.mark, if_pos seen]
    exact ⟨remembers.ttlSame, pastNow, remembers.spaced, remembers.forget_iff later⟩

/-- The memory holds no more than what was accepted within the time to live. -/
theorem Remembers.length_le (remembers : Remembers ttl accepted last recent)
    : recent.seen.entries.length
      ≤ accepted.countP (fun entry => decide (last < entry.2 + ttl)) := by
  have distinct : recent.seen.entries.Nodup := recent.seen.keys_nodup.of_map _
  have stored : recent.seen.entries
      ⊆ accepted.filter (fun entry => decide (last < entry.2 + ttl)) := by
    rintro ⟨key, time⟩ member
    obtain ⟨isAccepted, young⟩ :=
      (remembers.stored_iff key time).mp (BTreeMap.get?_eq_some_iff.mpr member)
    exact List.mem_filter.mpr ⟨isAccepted, decide_eq_true young⟩
  rw [List.countP_eq_length_filter]
  exact (distinct.subperm stored).length_le

end Remembering

end Recent

end PerpDex
