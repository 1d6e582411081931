import PerpDex.RateLimit

/-! What the rate limiter admits.
The queue of a key forgets admitted calls only after they have left the window of every later
check, so a check counts exactly the admitted calls of its key in the window that ends with
it. Reads with `peek_at` may come at any time that is not after a later check.
-/

namespace PerpDex

namespace RateLimiter

inductive Call where
  | check (key : String) (now : Nat)
  | peek (key : String) (now : Nat)
deriving DecidableEq

def Call.now : Call → Nat
  | .check _ now => now
  | .peek _ now => now

def Call.isCheck : Call → Bool
  | .check .. => true
  | .peek .. => false

/-- A limiter after some calls, with the admitted calls and the answers to the checks. -/
structure Served where
  limiter : RateLimiter
  admitted : List (String × Nat)
  answers : List Bool

def Served.step (served : Served) : Call → Served
  | .check key now =>
      let (answer, limiter) := served.limiter.checkAndRecordAt key now
      { limiter
        admitted := if answer then served.admitted ++ [(key, now)] else served.admitted
        answers := served.answers ++ [answer] }
  | .peek key now => { served with limiter := (served.limiter.peekAt key now).2 }

def serve (window maxPerWindow : Nat) (calls : List Call) : Served :=
  calls.foldl Served.step ⟨new window maxPerWindow, [], []⟩

/-- No check is earlier than a call before it. -/
def InOrder (calls : List Call) : Prop :=
  calls.Pairwise (fun earlier later => later.isCheck = true → earlier.now ≤ later.now)

/-- When calls of a key were admitted. -/
def timesOf (key : String) (admitted : List (String × Nat)) : List Nat :=
  (admitted.filter (fun entry => entry.1 = key)).map Prod.snd

/-- The half-open window that ends with `last`. -/
def inWindow (window last time : Nat) : Bool := decide (last < time + window ∧ time ≤ last)

/-- How many calls of a key were admitted in the window that ends with `last`. -/
def admittedIn (window : Nat) (key : String) (last : Nat) (admitted : List (String × Nat)) : Nat :=
  (timesOf key admitted).countP (inWindow window last)

-----------------------------------------------------------------------------------------
-- Pruning
-----------------------------------------------------------------------------------------

/-- Dropping by a weaker test first makes no difference. -/
theorem dropWhile_dropWhile {weak strong : Nat → Bool}
    (stronger : ∀ time, weak time = true → strong time = true) (times : List Nat)
    : (times.dropWhile weak).dropWhile strong = times.dropWhile strong := by
  induction times with
  | nil => rfl
  | cons time rest ih =>
      by_cases dropped : weak time = true
      · rw [List.dropWhile_cons_of_pos dropped, ih,
          List.dropWhile_cons_of_pos (stronger time dropped)]
      · rw [List.dropWhile_cons_of_neg dropped]

/-- In a sorted queue the times outside the window are at the front. -/
theorem dropWhile_sorted {window last : Nat} {times : List Nat} (sorted : times.Pairwise (· ≤ ·))
    (past : ∀ time ∈ times, time ≤ last)
    : times.dropWhile (fun front => window ≤ last - front)
      = times.filter (inWindow window last) := by
  induction times with
  | nil => rfl
  | cons time rest ih =>
      obtain ⟨least, sortedRest⟩ := List.pairwise_cons.mp sorted
      obtain ⟨pastTime, pastRest⟩ := List.forall_mem_cons.mp past
      by_cases dropped : window ≤ last - time
      · have outside : inWindow window last time = false := by
          simp only [inWindow, decide_eq_false_iff_not]
          omega
        rw [List.dropWhile_cons_of_pos (by simpa using dropped), ih sortedRest pastRest,
          List.filter_cons_of_neg (by simp [outside])]
      · rw [List.dropWhile_cons_of_neg (by simpa using dropped), eq_comm, List.filter_eq_self]
        intro other member
        have later : time ≤ other := by
          rcases List.mem_cons.mp member with rfl | deeper
          · exact le_rfl
          · exact least other deeper
        have pastOther := past other member
        simp only [inWindow, decide_eq_true_eq]
        omega

def queue (limiter : RateLimiter) (key : String) : List Nat := (limiter.inner key).getD []

@[simp]
theorem queue_setQueue (limiter : RateLimiter) (key other : String) (times : List Nat)
    : (limiter.setQueue key times).queue other
      = if other = key then times else limiter.queue other := by
  simp only [queue, setQueue]
  split_ifs
  · rfl
  · rfl

/-- What a check does, in terms of the queue it has pruned. -/
theorem checkAndRecordAt_eq (limiter : RateLimiter) (key : String) (now : Nat)
    : limiter.checkAndRecordAt key now
      = (decide ((limiter.prune now (limiter.queue key)).length < limiter.maxPerWindow),
          limiter.setQueue key
            (if (limiter.prune now (limiter.queue key)).length < limiter.maxPerWindow then
              limiter.prune now (limiter.queue key) ++ [now]
            else limiter.prune now (limiter.queue key))) := by
  simp only [checkAndRecordAt, ← queue.eq_1]
  by_cases free : (limiter.prune now (limiter.queue key)).length < limiter.maxPerWindow
  · rw [if_neg (not_le.mpr free), if_pos free, decide_eq_true free]
  · rw [if_pos (not_lt.mp free), if_neg free, decide_eq_false free]

/-- A read prunes the queue of its key and changes nothing else. -/
theorem queue_peekAt (limiter : RateLimiter) (key other : String) (now : Nat)
    : (limiter.peekAt key now).2.queue other
      = if other = key then limiter.prune now (limiter.queue key) else limiter.queue other := by
  simp only [peekAt, queue]
  cases found : limiter.inner key with
  | none =>
      simp only [Option.getD_none, prune, List.dropWhile_nil]
      split_ifs with same
      · rw [same, found]
        rfl
      · rfl
  | some times =>
      simp only [setQueue, Option.getD_some]
      split_ifs
      · rfl
      · rfl

theorem peekAt_limits (limiter : RateLimiter) (key : String) (now : Nat)
    : (limiter.peekAt key now).2.window = limiter.window
      ∧ (limiter.peekAt key now).2.maxPerWindow = limiter.maxPerWindow := by
  simp only [peekAt]
  cases limiter.inner key with
  | none => exact ⟨rfl, rfl⟩
  | some times => exact ⟨rfl, rfl⟩

theorem timesOf_append (key : String) (front back : List (String × Nat))
    : timesOf key (front ++ back) = timesOf key front ++ timesOf key back := by
  simp [timesOf]

theorem timesOf_singleton (key other : String) (now : Nat)
    : timesOf key [(other, now)] = if other = key then [now] else [] := by
  by_cases same : other = key
  · simp [timesOf, same]
  · simp [timesOf, same]

-----------------------------------------------------------------------------------------
-- The invariant
-----------------------------------------------------------------------------------------

/-- Pruned for any time that is not before the calls so far, the queue of a key holds the
admitted calls in the window that ends then.
-/
structure Tracks (window maxPerWindow : Nat) (calls : List Call) (served : Served) : Prop where
  windowSame : served.limiter.window = window
  maxSame : served.limiter.maxPerWindow = maxPerWindow
  sorted : (served.admitted.map Prod.snd).Pairwise (· ≤ ·)
  called : ∀ entry ∈ served.admitted, ∃ call ∈ calls, call.now = entry.2
  counted
    : ∀ key last, (∀ call ∈ calls, call.now ≤ last)
      → served.limiter.prune last (served.limiter.queue key)
        = (timesOf key served.admitted).filter (inWindow window last)

section Tracking

variable {window maxPerWindow : Nat} {calls : List Call} {served : Served}

theorem Tracks.initial : Tracks window maxPerWindow [] ⟨new window maxPerWindow, [], []⟩ where
  windowSame := rfl
  maxSame := rfl
  sorted := List.Pairwise.nil
  called := by simp
  counted := fun _ _ _ => rfl

theorem Tracks.sorted_times (tracks : Tracks window maxPerWindow calls served) (key : String)
    : (timesOf key served.admitted).Pairwise (· ≤ ·) := by
  refine List.Pairwise.sublist ?_ tracks.sorted
  exact List.Sublist.map Prod.snd List.filter_sublist

theorem Tracks.entry_le (tracks : Tracks window maxPerWindow calls served) {last : Nat}
    (past : ∀ call ∈ calls, call.now ≤ last) {entry : String × Nat}
    (member : entry ∈ served.admitted)
    : entry.2 ≤ last := by
  obtain ⟨call, called, same⟩ := tracks.called entry member
  rw [← same]
  exact past call called

theorem Tracks.times_le (tracks : Tracks window maxPerWindow calls served) {key : String}
    {last : Nat} (past : ∀ call ∈ calls, call.now ≤ last)
    : ∀ time ∈ timesOf key served.admitted, time ≤ last := by
  intro time member
  obtain ⟨entry, isEntry, rfl⟩ := List.mem_map.mp member
  exact tracks.entry_le past (List.mem_of_mem_filter isEntry)

/-- A check is admitted exactly if the window that ends with it has room. -/
theorem Tracks.answer (tracks : Tracks window maxPerWindow calls served) {now : Nat}
    (past : ∀ call ∈ calls, call.now ≤ now) (key : String)
    : (served.limiter.checkAndRecordAt key now).1
      = decide (admittedIn window key now served.admitted < maxPerWindow) := by
  rw [checkAndRecordAt_eq, tracks.counted key now past, tracks.maxSame, admittedIn,
    List.countP_eq_length_filter]

/-- Pruning twice is pruning for the later time. -/
theorem prune_prune (limiter : RateLimiter) {now last : Nat} (later : now ≤ last)
    (times : List Nat)
    : limiter.prune last (limiter.prune now times) = limiter.prune last times := by
  refine dropWhile_dropWhile (fun time dropped => ?_) times
  have outside : limiter.window ≤ now - time := of_decide_eq_true dropped
  exact decide_eq_true (outside.trans (Nat.sub_le_sub_right later time))

/-- Pruning what an admitted call leaves is filtering: the queue stays sorted. -/
theorem prune_snoc (limiter : RateLimiter) {now last : Nat} (later : now ≤ last)
    {times : List Nat} (sorted : times.Pairwise (· ≤ ·)) (past : ∀ time ∈ times, time ≤ now)
    : limiter.prune last (times.filter (inWindow limiter.window now) ++ [now])
      = (times ++ [now]).filter (inWindow limiter.window last) := by
  have sortedNow : (times.filter (inWindow limiter.window now) ++ [now]).Pairwise (· ≤ ·) := by
    rw [List.pairwise_append]
    refine ⟨sorted.filter _, List.pairwise_singleton _ _, fun time member final isFinal => ?_⟩
    rw [List.mem_singleton.mp isFinal]
    exact past time (List.mem_of_mem_filter member)
  have pastNow : ∀ time ∈ times.filter (inWindow limiter.window now) ++ [now], time ≤ last := by
    intro time member
    rcases List.mem_append.mp member with old | new
    · exact (past time (List.mem_of_mem_filter old)).trans later
    · rw [List.mem_singleton.mp new]
      exact later
  rw [prune, dropWhile_sorted sortedNow pastNow, List.filter_append, List.filter_append,
    List.filter_filter]
  congr 1
  refine List.filter_congr (fun time member => ?_)
  have notAfter := past time member
  simp only [inWindow, ← Bool.decide_and, decide_eq_decide]
  omega

theorem Tracks.called_snoc (tracks : Tracks window maxPerWindow calls served) (call : Call)
    : ∀ entry ∈ served.admitted, ∃ earlier ∈ calls ++ [call], earlier.now = entry.2 := by
  intro entry member
  obtain ⟨earlier, called, same⟩ := tracks.called entry member
  exact ⟨earlier, List.mem_append_left _ called, same⟩

/-- What is not before a longer run is not before the shorter one nor its last call. -/
theorem past_snoc {call : Call} {last : Nat}
    (past : ∀ earlier ∈ calls ++ [call], earlier.now ≤ last)
    : (∀ earlier ∈ calls, earlier.now ≤ last) ∧ call.now ≤ last :=
  ⟨fun earlier member => past earlier (List.mem_append_left _ member),
    past call (List.mem_append_right _ (List.mem_singleton_self call))⟩

/-- Pruning the queue of a key at a call changes nothing that is counted later. -/
theorem Tracks.counted_pruned (tracks : Tracks window maxPerWindow calls served)
    (key other : String) {now last : Nat} (before : ∀ call ∈ calls, call.now ≤ last)
    (later : now ≤ last)
    : served.limiter.prune last
        (if other = key then served.limiter.prune now (served.limiter.queue key)
          else served.limiter.queue other)
      = (timesOf other served.admitted).filter (inWindow window last) := by
  have counted := tracks.counted other last before
  split_ifs with same
  · rw [prune_prune _ later, ← same]
    exact counted
  · exact counted

theorem Tracks.peek (tracks : Tracks window maxPerWindow calls served) (key : String)
    (now : Nat)
    : Tracks window maxPerWindow (calls ++ [.peek key now]) (served.step (.peek key now)) := by
  obtain ⟨windowSame, maxSame⟩ := peekAt_limits served.limiter key now
  refine ⟨windowSame.trans tracks.windowSame, maxSame.trans tracks.maxSame, tracks.sorted,
    tracks.called_snoc _, fun other last past => ?_⟩
  obtain ⟨before, later⟩ := past_snoc past
  show (served.limiter.peekAt key now).2.prune last
    ((served.limiter.peekAt key now).2.queue other) = _
  rw [queue_peekAt, prune, windowSame, ← prune.eq_1]
  exact tracks.counted_pruned key other before later

/-- A refused check prunes the queue of its key. -/
theorem Tracks.refuse (tracks : Tracks window maxPerWindow calls served) (key : String)
    (now : Nat)
    : Tracks window maxPerWindow (calls ++ [.check key now])
        ⟨served.limiter.setQueue key (served.limiter.prune now (served.limiter.queue key)),
          served.admitted, served.answers ++ [false]⟩ := by
  refine ⟨tracks.windowSame, tracks.maxSame, tracks.sorted, tracks.called_snoc _,
    fun other last past => ?_⟩
  obtain ⟨before, later⟩ := past_snoc past
  show served.limiter.prune last _ = _
  rw [queue_setQueue]
  exact tracks.counted_pruned key other before later

/-- An admitted one also adds its time at the end. -/
theorem Tracks.admit (tracks : Tracks window maxPerWindow calls served) (key : String)
    {now : Nat} (past : ∀ call ∈ calls, call.now ≤ now)
    : Tracks window maxPerWindow (calls ++ [.check key now])
        ⟨served.limiter.setQueue key
            (served.limiter.prune now (served.limiter.queue key) ++ [now]),
          served.admitted ++ [(key, now)], served.answers ++ [true]⟩ := by
  refine ⟨tracks.windowSame, tracks.maxSame, ?_, ?_, fun other last pastAll => ?_⟩
  · rw [List.map_append, List.pairwise_append]
    refine ⟨tracks.sorted, List.pairwise_singleton _ _, fun time member last isLast => ?_⟩
    obtain ⟨entry, isEntry, rfl⟩ := List.mem_map.mp member
    rw [List.mem_singleton.mp isLast]
    exact tracks.entry_le past isEntry
  · intro entry member
    rcases List.mem_append.mp member with old | new
    · exact tracks.called_snoc _ entry old
    · rw [List.mem_singleton.mp new]
      exact ⟨.check key now, List.mem_append_right _ (List.mem_singleton_self _), rfl⟩
  · obtain ⟨before, later⟩ := past_snoc pastAll
    show served.limiter.prune last _ = _
    rw [queue_setQueue, timesOf_append, timesOf_singleton]
    by_cases same : other = key
    · subst same
      have snoc := prune_snoc served.limiter later (tracks.sorted_times other)
        (tracks.times_le past)
      rw [tracks.windowSame] at snoc
      rw [if_pos rfl, if_pos rfl, tracks.counted other now past]
      exact snoc
    · rw [if_neg same, if_neg (Ne.symm same), List.append_nil]
      exact tracks.counted other last before

theorem Tracks.check (tracks : Tracks window maxPerWindow calls served) (key : String)
    {now : Nat} (past : ∀ call ∈ calls, call.now ≤ now)
    : Tracks window maxPerWindow (calls ++ [.check key now]) (served.step (.check key now)) := by
  have length : (served.limiter.prune now (served.limiter.queue key)).length
      = admittedIn window key now served.admitted := by
    rw [tracks.counted key now past, admittedIn, List.countP_eq_length_filter]
  simp only [Served.step, checkAndRecordAt_eq, length, tracks.maxSame, decide_eq_true_eq]
  by_cases free : admittedIn window key now served.admitted < maxPerWindow
  · simp only [if_pos free, decide_eq_true free]
    exact tracks.admit key past
  · simp only [if_neg free, decide_eq_false free]
    exact tracks.refuse key now

end Tracking

theorem InOrder.init {calls : List Call} {call : Call} (ordered : InOrder (calls ++ [call]))
    : InOrder calls :=
  (List.pairwise_append.mp ordered).1

/-- None of the calls before a check is later. -/
theorem InOrder.before_check {calls : List Call} {key : String} {now : Nat}
    (ordered : InOrder (calls ++ [.check key now]))
    : ∀ call ∈ calls, call.now ≤ now := by
  intro call member
  exact (List.pairwise_append.mp ordered).2.2 call member (.check key now)
    (List.mem_singleton_self _) rfl

/-- The limiter tracks every run of calls in order. -/
theorem serve_tracks (window maxPerWindow : Nat) {calls : List Call} (ordered : InOrder calls)
    : Tracks window maxPerWindow calls (serve window maxPerWindow calls) := by
  induction calls using List.reverseRecOn with
  | nil => exact Tracks.initial
  | append_singleton calls call ih =>
      rw [serve, List.foldl_append]
      cases call with
      | check key now => exact (ih ordered.init).check key ordered.before_check
      | peek key now => exact (ih ordered.init).peek key now

section Runs

variable (window maxPerWindow : Nat)

theorem serve_snoc (calls : List Call) (call : Call)
    : serve window maxPerWindow (calls ++ [call])
      = (serve window maxPerWindow calls).step call := by
  simp only [serve, List.foldl_append, List.foldl_cons, List.foldl_nil]

/-- What a check adds to the admitted calls and to the answers. -/
theorem serve_check {calls : List Call} (ordered : InOrder calls) {key : String} {now : Nat}
    (past : ∀ call ∈ calls, call.now ≤ now)
    : (serve window maxPerWindow (calls ++ [.check key now])).admitted
        = (serve window maxPerWindow calls).admitted
          ++ (if admittedIn window key now (serve window maxPerWindow calls).admitted < maxPerWindow
            then [(key, now)] else [])
      ∧ (serve window maxPerWindow (calls ++ [.check key now])).answers
        = (serve window maxPerWindow calls).answers
          ++ [decide (admittedIn window key now (serve window maxPerWindow calls).admitted
            < maxPerWindow)] := by
  have answer := (serve_tracks window maxPerWindow ordered).answer past key
  rw [serve_snoc]
  simp only [Served.step, answer, decide_eq_true_eq, and_true]
  split_ifs
  · rfl
  · exact (List.append_nil _).symm

/-- A window never holds more admitted calls of a key than the limit. -/
theorem admittedIn_le {calls : List Call} (ordered : InOrder calls) (key : String) (last : Nat)
    : admittedIn window key last (serve window maxPerWindow calls).admitted ≤ maxPerWindow := by
  induction calls using List.reverseRecOn with
  | nil => exact Nat.zero_le _
  | append_singleton calls call ih =>
      have before := ordered.init
      have within := ih before
      cases call with
      | peek other now =>
          rw [serve_snoc]
          exact within
      | check other now =>
          have past := ordered.before_check
          rw [(serve_check window maxPerWindow before past).1]
          split_ifs with free
          · by_cases counts : other = key ∧ inWindow window last now = true
            · obtain ⟨rfl, inside⟩ := counts
              -- the others in this window are in the one that ends with the new call
              have fewer : admittedIn window other last (serve window maxPerWindow calls).admitted
                  ≤ admittedIn window other now (serve window maxPerWindow calls).admitted := by
                refine List.countP_mono_left (fun time member counted => ?_)
                have notAfter :=
                  (serve_tracks window maxPerWindow before).times_le past time member
                simp only [inWindow, decide_eq_true_eq] at inside counted ⊢
                omega
              rw [admittedIn, timesOf_append, timesOf_singleton, if_pos rfl, List.countP_append,
                List.countP_singleton, if_pos inside]
              exact Nat.succ_le_of_lt (lt_of_le_of_lt fewer free)
            · have unchanged : (timesOf key [(other, now)]).countP (inWindow window last) = 0 := by
                rw [timesOf_singleton]
                split_ifs with same
                · rw [List.countP_singleton, if_neg (fun inside => counts ⟨same, inside⟩)]
                · rfl
              rw [admittedIn, timesOf_append, List.countP_append, unchanged]
              exact within
          · rw [List.append_nil]
            exact within

/-- Only the admitted calls of a key, as checks. -/
def replay (key : String) (admitted : List (String × Nat)) : List Call :=
  (timesOf key admitted).map (Call.check key)

theorem replay_ordered {calls : List Call} (ordered : InOrder calls) (key : String)
    : InOrder (replay key (serve window maxPerWindow calls).admitted) := by
  rw [InOrder, replay, List.pairwise_map]
  refine ((serve_tracks window maxPerWindow ordered).sorted_times key).imp ?_
  intro earlier later notLater _
  exact notLater

/-- Replaying the admitted calls of a key admits all of them. -/
theorem replay_admitted {calls : List Call} (ordered : InOrder calls) (key : String)
    : timesOf key
        (serve window maxPerWindow
          (replay key (serve window maxPerWindow calls).admitted)).admitted
      = timesOf key (serve window maxPerWindow calls).admitted := by
  induction calls using List.reverseRecOn with
  | nil => rfl
  | append_singleton calls call ih =>
      have before := ordered.init
      have same := ih before
      cases call with
      | peek other now =>
          rw [serve_snoc]
          exact same
      | check other now =>
          have past := ordered.before_check
          rw [(serve_check window maxPerWindow before past).1]
          split_ifs with free
          · by_cases isKey : other = key
            · subst isKey
              have pastReplay
                  : ∀ call ∈ replay other (serve window maxPerWindow calls).admitted,
                    call.now ≤ now := by
                intro call member
                obtain ⟨time, isTime, rfl⟩ := List.mem_map.mp member
                exact (serve_tracks window maxPerWindow before).times_le past time isTime
              have longer : replay other
                  ((serve window maxPerWindow calls).admitted ++ [(other, now)])
                  = replay other (serve window maxPerWindow calls).admitted
                    ++ [.check other now] := by
                simp [replay, timesOf_append, timesOf_singleton]
              rw [longer, (serve_check window maxPerWindow
                (replay_ordered window maxPerWindow before other) pastReplay).1, if_pos
                (by rw [admittedIn, same]; exact free), timesOf_append, timesOf_append, same]
            · have shorter : ∀ admitted : List (String × Nat),
                  timesOf key (admitted ++ [(other, now)]) = timesOf key admitted := by
                intro admitted
                rw [timesOf_append, timesOf_singleton, if_neg isKey, List.append_nil]
              rw [replay, shorter]
              exact same
          · rw [List.append_nil]
            exact same

/-- Reads change neither the admitted calls nor the answers. -/
theorem serve_checks_only {calls : List Call} (ordered : InOrder calls)
    : (serve window maxPerWindow (calls.filter Call.isCheck)).admitted
        = (serve window maxPerWindow calls).admitted
      ∧ (serve window maxPerWindow (calls.filter Call.isCheck)).answers
        = (serve window maxPerWindow calls).answers := by
  induction calls using List.reverseRecOn with
  | nil => exact ⟨rfl, rfl⟩
  | append_singleton calls call ih =>
      have before := ordered.init
      obtain ⟨admitted, answers⟩ := ih before
      cases call with
      | peek key now =>
          rw [serve_snoc, List.filter_append, show [Call.peek key now].filter Call.isCheck = []
            from rfl, List.append_nil]
          exact ⟨admitted, answers⟩
      | check key now =>
          have past := ordered.before_check
          have pastChecks : ∀ call ∈ calls.filter Call.isCheck, call.now ≤ now :=
            fun call member => past call (List.mem_of_mem_filter member)
          have ordering : InOrder (calls.filter Call.isCheck) := before.filter _
          rw [List.filter_append, show [Call.check key now].filter Call.isCheck
            = [Call.check key now] from rfl]
          rw [(serve_check window maxPerWindow ordering pastChecks).1,
            (serve_check window maxPerWindow ordering pastChecks).2,
            (serve_check window maxPerWindow before past).1,
            (serve_check window maxPerWindow before past).2, admitted, answers]
          exact ⟨rfl, rfl⟩

end Runs

/-- The limiter is a sliding window. A check is admitted exactly if fewer calls of its key
than the limit were admitted in the window that ends with it, so no window ever holds more;
the admitted calls of the key alone give the same answer, and reads change no answer.
-/
theorem rate_limiter_slides (window maxPerWindow : Nat) {calls : List Call}
    (ordered : InOrder calls)
    : (∀ front key now, front ++ [.check key now] <+: calls
        → (((serve window maxPerWindow front).limiter.checkAndRecordAt key now).1 = true
            ↔ admittedIn window key now (serve window maxPerWindow front).admitted
              < maxPerWindow)
          ∧ ((serve window maxPerWindow front).limiter.checkAndRecordAt key now).1
            = ((serve window maxPerWindow
                (replay key (serve window maxPerWindow front).admitted)).limiter.checkAndRecordAt
                  key now).1)
      ∧ (∀ key last,
          admittedIn window key last (serve window maxPerWindow calls).admitted ≤ maxPerWindow)
      ∧ (serve window maxPerWindow (calls.filter Call.isCheck)).answers
        = (serve window maxPerWindow calls).answers := by
  refine ⟨?_, admittedIn_le window maxPerWindow ordered,
    (serve_checks_only window maxPerWindow ordered).2⟩
  intro front key now isFront
  have untilCheck : InOrder (front ++ [.check key now]) := ordered.sublist isFront.sublist
  have before := untilCheck.init
  have past := untilCheck.before_check
  have tracks := serve_tracks window maxPerWindow before
  have pastReplay : ∀ call ∈ replay key (serve window maxPerWindow front).admitted,
      call.now ≤ now := by
    intro call member
    obtain ⟨time, isTime, rfl⟩ := List.mem_map.mp member
    exact tracks.times_le past time isTime
  have replayed := (serve_tracks window maxPerWindow
    (replay_ordered window maxPerWindow before key)).answer pastReplay key
  have sameCount : admittedIn window key now
      (serve window maxPerWindow
        (replay key (serve window maxPerWindow front).admitted)).admitted
      = admittedIn window key now (serve window maxPerWindow front).admitted := by
    rw [admittedIn, replay_admitted window maxPerWindow before key, ← admittedIn.eq_1]
  rw [tracks.answer past key, replayed, sameCount, decide_eq_true_eq]
  exact ⟨Iff.rfl, rfl⟩

/-- Two calls a minute: the third one is refused until the first one is a minute old. -/
theorem rate_limiter_slides_minute
    : InOrder [.check "alice" 0, .check "alice" 10, .peek "alice" 20, .check "alice" 59,
        .check "alice" 60]
      ∧ (serve 60 2 [.check "alice" 0, .check "alice" 10, .check "alice" 59,
          .check "alice" 60]).answers = [true, true, false, true] := by
  have ordered : InOrder [.check "alice" 0, .check "alice" 10, .peek "alice" 20,
      .check "alice" 59, .check "alice" 60] := by
    simp [InOrder, Call.isCheck, Call.now]
  refine ⟨ordered, (rate_limiter_slides 60 2 ordered).2.2.trans ?_⟩
  decide +kernel

end RateLimiter

end PerpDex
