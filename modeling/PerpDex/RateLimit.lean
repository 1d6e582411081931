import Mathlib

/-! Per-key sliding-window rate limiter.
Instants are natural numbers, and `Instant::duration_since` saturates at zero. The
limiter sits behind a mutex, so every operation returns the updated limiter.
-/

namespace PerpDex

/-- Admit times per key, oldest first; an absent key has never been recorded. -/
structure RateLimiter where
  window : Nat
  maxPerWindow : Nat
  inner : String → Option (List Nat)

namespace RateLimiter

def new (window maxPerWindow : Nat) : RateLimiter where
  window := window
  maxPerWindow := maxPerWindow
  inner := fun _ => none

def setQueue (limiter : RateLimiter) (key : String) (queue : List Nat) : RateLimiter :=
  { limiter with
    inner := fun other => if other = key then some queue else limiter.inner other }

/-- Drop admit times that fell out of the trailing window. -/
def prune (limiter : RateLimiter) (now : Nat) (queue : List Nat) : List Nat :=
  queue.dropWhile (fun front => limiter.window ≤ now - front)

/-- `check_and_record_at`: admit and record, or refuse and record nothing. -/
def checkAndRecordAt (limiter : RateLimiter) (key : String) (now : Nat)
    : Bool × RateLimiter :=
  let queue := limiter.prune now ((limiter.inner key).getD [])
  if limiter.maxPerWindow ≤ queue.length then (false, limiter.setQueue key queue)
  else (true, limiter.setQueue key (queue ++ [now]))

/-- `peek_at`: would the next request be admitted? Prunes, but consumes no slot. -/
def peekAt (limiter : RateLimiter) (key : String) (now : Nat) : Bool × RateLimiter :=
  match limiter.inner key with
  | none => (true, limiter)
  | some queue =>
      let queue := limiter.prune now queue
      (decide (queue.length < limiter.maxPerWindow), limiter.setQueue key queue)

/-- `record_at`: record an event without checking the budget. -/
def recordAt (limiter : RateLimiter) (key : String) (now : Nat) : RateLimiter :=
  let queue := limiter.prune now ((limiter.inner key).getD [])
  limiter.setQueue key (queue ++ [now])

end RateLimiter

end PerpDex
