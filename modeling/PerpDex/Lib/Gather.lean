import Mathlib

/-! Asking one after the other until enough have answered.
Who is asked is a prefix of the list, and it ends with the answer that makes enough.
-/

namespace PerpDex

namespace Gather

/-- What comes of one item: nobody is asked, or a request is made and answered or not. -/
inductive Attempt (ρ ε : Type) where
  | skipped
  | refused (request : ρ)
  | granted (request : ρ) (answer : ε)

namespace Attempt

variable {ρ ε : Type}

def request : Attempt ρ ε → Option ρ
  | .skipped => none
  | .refused request | .granted request _ => some request

def answer : Attempt ρ ε → Option ε
  | .granted _ answer => some answer
  | _ => none

end Attempt

/-- The requests made and the answers held so far, in order. -/
structure Gathered (ρ ε : Type) where
  asked : List ρ
  held : List ε

section Gather

variable {σ ρ ε : Type} (attempt : σ → Attempt ρ ε) (quorum : Nat)

/-- Walk the items until as many answers as the quorum are held. -/
def gather (gathered : Gathered ρ ε) : List σ → Gathered ρ ε
  | [] => gathered
  | item :: rest =>
      if quorum ≤ gathered.held.length then gathered
      else
        match attempt item with
        | .skipped => gather gathered rest
        | .refused request => gather { gathered with asked := gathered.asked ++ [request] } rest
        | .granted request answer =>
            gather ⟨gathered.asked ++ [request], gathered.held ++ [answer]⟩ rest

/-- The requests made for some items, if all of them are tried. -/
def requests (items : List σ) : List ρ := items.filterMap (fun item => (attempt item).request)

/-- The answers to all of some items. -/
def answers (items : List σ) : List ε := items.filterMap (fun item => (attempt item).answer)

/-- The items up to the one whose answer is the last that is needed. -/
def tried : (needed : Nat) → List σ → List σ
  | _, [] => []
  | 0, _ :: _ => []
  | needed + 1, item :: rest =>
      match (attempt item).answer with
      | none => item :: tried (needed + 1) rest
      | some _ => item :: tried needed rest

@[simp] theorem requests_nil : requests attempt [] = [] := rfl

@[simp] theorem answers_nil : answers attempt [] = [] := rfl

@[simp] theorem tried_nil (needed : Nat) : tried attempt needed [] = [] := by
  cases needed <;> rfl

@[simp] theorem tried_zero (items : List σ) : tried attempt 0 items = [] := by
  cases items <;> rfl

/-- The walk adds the requests and the answers of the items it tries. -/
theorem gather_eq (gathered : Gathered ρ ε) (items : List σ)
    : gather attempt quorum gathered items
      = ⟨gathered.asked
            ++ requests attempt (tried attempt (quorum - gathered.held.length) items),
          gathered.held
            ++ answers attempt (tried attempt (quorum - gathered.held.length) items)⟩ := by
  induction items generalizing gathered with
  | nil => simp [gather]
  | cons item rest ih =>
      rw [gather]
      split_ifs with enough
      · rw [Nat.sub_eq_zero_of_le enough]
        simp
      · obtain ⟨needed, isNeeded⟩ : ∃ needed, quorum - gathered.held.length = needed + 1 :=
          Nat.exists_eq_succ_of_ne_zero (by omega)
        rw [isNeeded, tried]
        cases outcome : attempt item with
        | skipped =>
            dsimp only
            rw [ih, isNeeded]
            simp [requests, answers, outcome, Attempt.request, Attempt.answer]
        | refused request =>
            dsimp only
            rw [ih]
            dsimp only
            rw [isNeeded]
            simp [requests, answers, outcome, Attempt.request, Attempt.answer]
        | granted request answer =>
            have fewer : quorum - (gathered.held ++ [answer]).length = needed := by
              rw [List.length_append, List.length_singleton]
              omega
            dsimp only
            rw [ih]
            dsimp only
            rw [fewer]
            simp [requests, answers, outcome, Attempt.request, Attempt.answer]

/-- What is held in the end are the first answers, as many as are needed. -/
theorem answers_tried (needed : Nat) (items : List σ)
    : answers attempt (tried attempt needed items) = (answers attempt items).take needed := by
  induction items generalizing needed with
  | nil => simp
  | cons item rest ih =>
      cases needed with
      | zero => simp
      | succ needed =>
          rw [tried]
          cases answered : (attempt item).answer with
          | none =>
              have same : ∀ others, answers attempt (item :: others) = answers attempt others :=
                fun others => by simp [answers, answered]
              rw [same, same, ih]
          | some answer =>
              have grown
                  : ∀ others, answers attempt (item :: others)
                      = answer :: answers attempt others :=
                fun others => by simp [answers, answered]
              rw [grown, grown, ih, List.take_succ_cons]

end Gather

end Gather

end PerpDex
