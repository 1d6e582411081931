import PerpDex.Lib.Distinct
import PerpDex.Lib.Recent
import PerpDex.RateLimitWindow

/-! The guards of a gossip topic: a rate limit for each relaying peer, then a replay guard.
What one peer may have passed on in a window, how far apart two messages of one key are, and
how much the replay guard stores all follow from what the two guards have let through before.
-/

namespace PerpDex

namespace Relay

open RateLimiter

/-- The tunables of a topic; durations are in nanoseconds. -/
structure GuardLimits where
  replayTtl : Nat
  rateWindow : Nat
  rateMaxPerWindow : Nat

def seconds (count : Nat) : Nat := count * 1000000000

/-- `SIGNING_REPLAY_TTL`, `SIGNING_RATE_WINDOW` and `SIGNING_RATE_MAX_PER_WINDOW`. -/
def signingLimits : GuardLimits where
  replayTtl := seconds (10 * 60)
  rateWindow := seconds 60
  rateMaxPerWindow := 30

/-- `DKG_STEP_REPLAY_TTL`, `DKG_STEP_RATE_WINDOW` and `DKG_STEP_RATE_MAX_PER_WINDOW`. -/
def dkgStepLimits : GuardLimits where
  replayTtl := seconds (30 * 60)
  rateWindow := seconds 60
  rateMaxPerWindow := 60

/-- `SHARE_V2_REPLAY_TTL`, `SHARE_V2_RATE_WINDOW` and `SHARE_V2_RATE_MAX_PER_WINDOW`. -/
def shareV2Limits : GuardLimits where
  replayTtl := seconds (30 * 60)
  rateWindow := seconds 60
  rateMaxPerWindow := 60

/-- The two maps a node keeps for a topic. -/
structure TopicGuards where
  rate : RateLimiter
  recent : Recent String

namespace TopicGuards

def new (limits : GuardLimits) : TopicGuards where
  rate := .new limits.rateWindow limits.rateMaxPerWindow
  recent := .new limits.replayTtl

/-- `check_signing_rate`, `check_dkg_step_rate` and `check_share_v2_rate`. -/
def checkRate (guards : TopicGuards) (peer : String) (now : Nat) : Bool × TopicGuards :=
  let (within, rate) := guards.rate.checkAndRecordAt peer now
  (within, { guards with rate })

/-- `mark_signing_request_fresh`, `mark_dkg_step_fresh` and `mark_share_v2_fresh`. -/
def markFresh (guards : TopicGuards) (key : String) (now : Nat) : Bool × TopicGuards :=
  let (fresh, recent) := guards.recent.mark key now
  (fresh, { guards with recent })

end TopicGuards

/-- A message as its guards see it: what was decided before the rate limit and what between
the two guards, and the readings of the clock for each.
-/
structure Arrival where
  peer : String
  key : String
  invited : Bool
  addressed : Bool
  checkedAt : Nat
  markedAt : Nat
deriving DecidableEq

/-- Whether a message gets past both guards. -/
def TopicGuards.takeIn (guards : TopicGuards) (arrival : Arrival) : Bool × TopicGuards :=
  if !arrival.invited then (false, guards)
  else
    match guards.checkRate arrival.peer arrival.checkedAt with
    | (false, guards) => (false, guards)
    | (true, guards) =>
        if !arrival.addressed then (false, guards)
        else guards.markFresh arrival.key arrival.markedAt

/-- The guards after some messages, with what the rate limit and what both guards let through. -/
structure Watched where
  guards : TopicGuards
  counted : List (String × Nat)
  passed : List Arrival

namespace Watched

def new (limits : GuardLimits) : Watched := ⟨.new limits, [], []⟩

/-- Whether the rate limit has let a message through. -/
def counts (watched : Watched) (arrival : Arrival) : Bool :=
  arrival.invited && (watched.guards.checkRate arrival.peer arrival.checkedAt).1

def step (watched : Watched) (arrival : Arrival) : Watched where
  guards := (watched.guards.takeIn arrival).2
  counted :=
    if watched.counts arrival then watched.counted ++ [(arrival.peer, arrival.checkedAt)]
    else watched.counted
  passed :=
    if (watched.guards.takeIn arrival).1 then watched.passed ++ [arrival] else watched.passed

/-- The keys of what got past both guards, with the times. -/
def keys (watched : Watched) : List (String × Nat) :=
  watched.passed.map (fun arrival => (arrival.key, arrival.markedAt))

end Watched

def watch (limits : GuardLimits) (arrivals : List Arrival) : Watched :=
  arrivals.foldl Watched.step (.new limits)

/-- The clock never runs backwards. -/
structure Timely (arrivals : List Arrival) : Prop where
  within : ∀ arrival ∈ arrivals, arrival.checkedAt ≤ arrival.markedAt
  between : arrivals.Pairwise (fun earlier later => earlier.markedAt ≤ later.checkedAt)

/-- What the two guards have to ask of a message, by what they have let through. -/
def Admissible (limits : GuardLimits) (watched : Watched) (arrival : Arrival) : Prop :=
  arrival.invited = true
    ∧ admittedIn limits.rateWindow arrival.peer arrival.checkedAt watched.counted
      < limits.rateMaxPerWindow
    ∧ arrival.addressed = true
    ∧ ∀ earlier ∈ watched.passed, earlier.key = arrival.key
        → earlier.markedAt + limits.replayTtl ≤ arrival.markedAt

/-- How many messages of a peer got past both guards in the window that ends with `last`. -/
def passedIn (window : Nat) (peer : String) (last : Nat) (passed : List Arrival) : Nat :=
  passed.countP (fun arrival => arrival.peer = peer && inWindow window last arrival.checkedAt)

-----------------------------------------------------------------------------------------
-- One message
-----------------------------------------------------------------------------------------

section Steps

variable (watched : Watched) (arrival : Arrival)

/-- The replay guard is asked about what the rate limit lets through and nothing before it stops. -/
theorem admit_fst
    : (watched.guards.takeIn arrival).1
      = (watched.counts arrival && arrival.addressed
          && (watched.guards.recent.mark arrival.key arrival.markedAt).1) := by
  simp only [TopicGuards.takeIn, Watched.counts, TopicGuards.checkRate, TopicGuards.markFresh]
  cases arrival.invited
  · rfl
  · cases (watched.guards.rate.checkAndRecordAt arrival.peer arrival.checkedAt).1
    · rfl
    · cases arrival.addressed <;> rfl

theorem admit_rate
    : (watched.guards.takeIn arrival).2.rate
      = if arrival.invited then
          (watched.guards.rate.checkAndRecordAt arrival.peer arrival.checkedAt).2
        else watched.guards.rate := by
  simp only [TopicGuards.takeIn, TopicGuards.checkRate, TopicGuards.markFresh]
  cases arrival.invited
  · rfl
  · cases (watched.guards.rate.checkAndRecordAt arrival.peer arrival.checkedAt).1
    · rfl
    · cases arrival.addressed <;> rfl

theorem admit_recent
    : (watched.guards.takeIn arrival).2.recent
      = if watched.counts arrival && arrival.addressed then
          (watched.guards.recent.mark arrival.key arrival.markedAt).2
        else watched.guards.recent := by
  cases invited : arrival.invited with
  | false => simp [TopicGuards.takeIn, Watched.counts, invited]
  | true =>
      cases within
        : (watched.guards.rate.checkAndRecordAt arrival.peer arrival.checkedAt).1 with
      | false =>
          simp [TopicGuards.takeIn, Watched.counts, TopicGuards.checkRate, invited, within]
      | true =>
          cases addressed : arrival.addressed <;>
            simp [TopicGuards.takeIn, Watched.counts, TopicGuards.checkRate,
              TopicGuards.markFresh, invited, within, addressed]

end Steps

theorem watch_snoc (limits : GuardLimits) (arrivals : List Arrival) (arrival : Arrival)
    : watch limits (arrivals ++ [arrival]) = (watch limits arrivals).step arrival := by
  simp only [watch, List.foldl_append, List.foldl_cons, List.foldl_nil]

theorem Timely.init {arrivals : List Arrival} {arrival : Arrival}
    (timely : Timely (arrivals ++ [arrival]))
    : Timely arrivals where
  within := fun earlier member => timely.within earlier (List.mem_append_left _ member)
  between := (List.pairwise_append.mp timely.between).1

/-- Nothing before the last message is later than it. -/
theorem Timely.before {arrivals : List Arrival} {arrival : Arrival}
    (timely : Timely (arrivals ++ [arrival]))
    : ∀ earlier ∈ arrivals, earlier.markedAt ≤ arrival.checkedAt :=
  fun earlier member =>
    (List.pairwise_append.mp timely.between).2.2 earlier member arrival
      (List.mem_singleton_self arrival)

theorem Timely.last {arrivals : List Arrival} {arrival : Arrival}
    (timely : Timely (arrivals ++ [arrival]))
    : arrival.checkedAt ≤ arrival.markedAt :=
  timely.within arrival (List.mem_append_right _ (List.mem_singleton_self arrival))

-----------------------------------------------------------------------------------------
-- The rate limit of a run
-----------------------------------------------------------------------------------------

/-- The checks that the rate limit of a topic makes for some messages. -/
def checksOf (arrivals : List Arrival) : List Call :=
  (arrivals.filter Arrival.invited).map (fun arrival => .check arrival.peer arrival.checkedAt)

theorem checksOf_snoc (arrivals : List Arrival) (arrival : Arrival)
    : checksOf (arrivals ++ [arrival])
      = checksOf arrivals
        ++ if arrival.invited then [.check arrival.peer arrival.checkedAt] else [] := by
  cases invited : arrival.invited <;> simp [checksOf, invited]

theorem Timely.inOrder {arrivals : List Arrival} (timely : Timely arrivals)
    : InOrder (checksOf arrivals) := by
  refine List.pairwise_map.mpr ?_
  refine List.Pairwise.imp_of_mem ?_ (timely.between.filter _)
  intro earlier later member _ ordered _
  exact (timely.within earlier (List.mem_of_mem_filter member)).trans ordered

theorem Timely.checks_le {arrivals : List Arrival} {arrival : Arrival}
    (timely : Timely (arrivals ++ [arrival]))
    : ∀ call ∈ checksOf arrivals, call.now ≤ arrival.checkedAt := by
  intro call member
  obtain ⟨earlier, isEarlier, rfl⟩ := List.mem_map.mp member
  have isArrival := List.mem_of_mem_filter isEarlier
  exact (timely.init.within earlier isArrival).trans (timely.before earlier isArrival)

section Runs

variable {limits : GuardLimits}

/-- The rate limit has served the checks and let through what is counted. -/
theorem watch_served (limits : GuardLimits) (arrivals : List Arrival)
    : (watch limits arrivals).guards.rate
        = (serve limits.rateWindow limits.rateMaxPerWindow (checksOf arrivals)).limiter
      ∧ (watch limits arrivals).counted
        = (serve limits.rateWindow limits.rateMaxPerWindow (checksOf arrivals)).admitted := by
  induction arrivals using List.reverseRecOn with
  | nil => exact ⟨rfl, rfl⟩
  | append_singleton arrivals arrival ih =>
      obtain ⟨rate, counted⟩ := ih
      rw [watch_snoc, checksOf_snoc]
      simp only [Watched.step, admit_rate]
      cases invited : arrival.invited with
      | false => simp [Watched.counts, invited, rate, counted]
      | true =>
          simp [Watched.counts, invited, TopicGuards.checkRate, serve_snoc, Served.step, rate,
            counted]

/-- The rate limit lets a message through exactly if it may come and its peer has room. -/
theorem counts_iff {arrivals : List Arrival} {arrival : Arrival}
    (timely : Timely (arrivals ++ [arrival]))
    : (watch limits arrivals).counts arrival = true
      ↔ arrival.invited = true
        ∧ admittedIn limits.rateWindow arrival.peer arrival.checkedAt
            (watch limits arrivals).counted
          < limits.rateMaxPerWindow := by
  obtain ⟨rate, counted⟩ := watch_served limits arrivals
  have answer := (serve_tracks limits.rateWindow limits.rateMaxPerWindow
    timely.init.inOrder).answer timely.checks_le arrival.peer
  rw [Watched.counts, Bool.and_eq_true, TopicGuards.checkRate, rate, counted]
  simp only [answer, decide_eq_true_eq]

theorem counted_admittedIn_le {arrivals : List Arrival} (timely : Timely arrivals)
    (peer : String) (last : Nat)
    : admittedIn limits.rateWindow peer last (watch limits arrivals).counted
      ≤ limits.rateMaxPerWindow := by
  rw [(watch_served limits arrivals).2]
  exact admittedIn_le _ _ timely.inOrder peer last

/-- What gets past both guards has been counted. -/
theorem passedIn_le_admittedIn (limits : GuardLimits) (arrivals : List Arrival) (peer : String)
    (last : Nat)
    : passedIn limits.rateWindow peer last (watch limits arrivals).passed
      ≤ admittedIn limits.rateWindow peer last (watch limits arrivals).counted := by
  induction arrivals using List.reverseRecOn with
  | nil => exact le_rfl
  | append_singleton arrivals arrival ih =>
      simp only [watch_snoc, Watched.step, admit_fst]
      cases counts : (watch limits arrivals).counts arrival
      · simpa using ih
      · have one : passedIn limits.rateWindow peer last [arrival]
            = admittedIn limits.rateWindow peer last [(arrival.peer, arrival.checkedAt)] := by
          rw [passedIn, admittedIn, timesOf_singleton, List.countP_singleton]
          by_cases same : arrival.peer = peer
          · simp [same, List.countP_singleton]
          · simp [same]
        have longer : admittedIn limits.rateWindow peer last
            ((watch limits arrivals).counted ++ [(arrival.peer, arrival.checkedAt)])
            = admittedIn limits.rateWindow peer last (watch limits arrivals).counted
              + admittedIn limits.rateWindow peer last [(arrival.peer, arrival.checkedAt)] := by
          rw [admittedIn, timesOf_append, List.countP_append]
          rfl
        rw [if_pos rfl, longer]
        split_ifs
        · rw [passedIn, List.countP_append]
          exact Nat.add_le_add ih one.le
        · exact ih.trans (Nat.le_add_right _ _)

-----------------------------------------------------------------------------------------
-- The replay guard of a run
-----------------------------------------------------------------------------------------

theorem Watched.keys_snoc (watched : Watched) (arrival : Arrival)
    : (watched.step arrival).keys
      = watched.keys
        ++ if (watched.guards.takeIn arrival).1 then [(arrival.key, arrival.markedAt)] else [] := by
  simp only [Watched.keys, Watched.step]
  split_ifs <;> simp

/-- The replay guard remembers the keys of what got past it, up to a reading of the clock that
no later message precedes.
-/
theorem watch_remembers (lives : 0 < limits.replayTtl) {arrivals : List Arrival}
    (timely : Timely arrivals)
    : ∃ last, (∀ now, (∀ arrival ∈ arrivals, arrival.markedAt ≤ now) → last ≤ now)
        ∧ Recent.Remembers limits.replayTtl (watch limits arrivals).keys last
          (watch limits arrivals).guards.recent := by
  induction arrivals using List.reverseRecOn with
  | nil => exact ⟨0, fun _ _ => Nat.zero_le _, Recent.Remembers.initial _ _⟩
  | append_singleton arrivals arrival ih =>
      obtain ⟨last, least, remembers⟩ := ih timely.init
      have later : last ≤ arrival.markedAt :=
        least _ (fun earlier member => (timely.before earlier member).trans timely.last)
      rw [watch_snoc, Watched.keys_snoc, admit_fst]
      show ∃ last, _ ∧ Recent.Remembers _ _ last
        ((watch limits arrivals).guards.takeIn arrival).2.recent
      rw [admit_recent]
      cases marked : (watch limits arrivals).counts arrival && arrival.addressed with
      | false =>
          refine ⟨last, fun now past => least now (fun earlier member => ?_), by simpa⟩
          exact past earlier (List.mem_append_left _ member)
      | true =>
          refine ⟨arrival.markedAt, fun now past => ?_, ?_⟩
          · exact past arrival (List.mem_append_right _ (List.mem_singleton_self arrival))
          · have longer := remembers.mark lives later arrival.key
            rw [remembers.mark_fst later, Bool.true_and, if_pos rfl]
            cases fresh : Recent.isFresh limits.replayTtl (watch limits arrivals).keys
              arrival.key arrival.markedAt with
            | true => simpa [fresh] using longer
            | false => simpa [fresh] using longer

/-- A message gets past both guards exactly if what they let through before leaves room for it. -/
theorem takeIn_iff (lives : 0 < limits.replayTtl) {arrivals : List Arrival} {arrival : Arrival}
    (timely : Timely (arrivals ++ [arrival]))
    : ((watch limits arrivals).guards.takeIn arrival).1 = true
      ↔ Admissible limits (watch limits arrivals) arrival := by
  obtain ⟨last, least, remembers⟩ := watch_remembers lives timely.init
  have later : last ≤ arrival.markedAt :=
    least _ (fun earlier member => (timely.before earlier member).trans timely.last)
  have unseen : Recent.isFresh limits.replayTtl (watch limits arrivals).keys arrival.key
        arrival.markedAt = true
      ↔ ∀ earlier ∈ (watch limits arrivals).passed, earlier.key = arrival.key
          → earlier.markedAt + limits.replayTtl ≤ arrival.markedAt := by
    rw [Recent.isFresh_iff]
    constructor
    · intro fresh earlier member same
      exact fresh earlier.markedAt (List.mem_map.mpr ⟨earlier, member, by rw [same]⟩)
    · intro fresh time member
      obtain ⟨earlier, isEarlier, same⟩ := List.mem_map.mp member
      obtain ⟨sameKey, rfl⟩ := Prod.mk.inj same
      exact fresh earlier isEarlier sameKey
  rw [admit_fst, Bool.and_eq_true, Bool.and_eq_true, counts_iff timely,
    remembers.mark_fst later, unseen, Admissible, and_assoc, and_assoc]

/-- Two messages of one key that both get past the guards are a time to live apart. -/
theorem passed_spaced (lives : 0 < limits.replayTtl) {arrivals : List Arrival}
    (timely : Timely arrivals)
    : (watch limits arrivals).passed.Pairwise
        (fun earlier later => earlier.key = later.key
          → earlier.markedAt + limits.replayTtl ≤ later.markedAt) := by
  obtain ⟨_, _, remembers⟩ := watch_remembers lives timely
  exact List.pairwise_map.mp remembers.spaced

-----------------------------------------------------------------------------------------
-- What a topic stores
-----------------------------------------------------------------------------------------

theorem passed_sublist (limits : GuardLimits) (arrivals : List Arrival)
    : (watch limits arrivals).passed.Sublist arrivals := by
  induction arrivals using List.reverseRecOn with
  | nil => exact List.Sublist.refl _
  | append_singleton arrivals arrival ih =>
      simp only [watch_snoc, Watched.step]
      cases ((watch limits arrivals).guards.takeIn arrival).1 with
      | true => exact ih.append (List.Sublist.refl _)
      | false => exact ih.trans (List.sublist_append_left _ _)

/-- No window holds more messages of a peer than its limit. -/
theorem passedIn_le {arrivals : List Arrival} (timely : Timely arrivals) (peer : String)
    (last : Nat)
    : passedIn limits.rateWindow peer last (watch limits arrivals).passed
      ≤ limits.rateMaxPerWindow :=
  (passedIn_le_admittedIn limits arrivals peer last).trans
    (counted_admittedIn_le timely peer last)

/-- At most one message is checked before an instant and marked after it. -/
theorem straddling_le_one {passed : List Arrival}
    (between : passed.Pairwise (fun earlier later => earlier.markedAt ≤ later.checkedAt))
    (instant : Nat)
    : passed.countP
        (fun arrival => decide (arrival.checkedAt ≤ instant ∧ instant < arrival.markedAt))
      ≤ 1 := by
  rw [List.countP_eq_length_filter]
  have apart := between.filter
    (fun arrival => decide (arrival.checkedAt ≤ instant ∧ instant < arrival.markedAt))
  generalize filtered : passed.filter
    (fun arrival => decide (arrival.checkedAt ≤ instant ∧ instant < arrival.markedAt)) = crossing
    at apart ⊢
  match crossing with
  | [] => exact Nat.zero_le _
  | [_] => exact le_rfl
  | first :: second :: _ =>
      have isFirst : first ∈ passed.filter _ := filtered ▸ List.mem_cons_self
      have isSecond : second ∈ passed.filter _ :=
        filtered ▸ List.mem_cons_of_mem _ List.mem_cons_self
      have ordered := (List.pairwise_cons.mp apart).1 second List.mem_cons_self
      have crosses := of_decide_eq_true (List.mem_filter.mp isFirst).2
      have alsoCrosses := of_decide_eq_true (List.mem_filter.mp isSecond).2
      omega

/-- The part of a message that was passed on within a time to live: its peer and the window of
its check, or none where the check was earlier.
-/
def part (window last instant : Nat) : Option (String × Nat) → Arrival → Bool
  | none, arrival => decide (arrival.checkedAt ≤ instant ∧ instant < arrival.markedAt)
  | some (peer, index), arrival =>
      arrival.peer = peer && inWindow window (last - index * window) arrival.checkedAt

theorem exists_part {windows window ttl last : Nat} {peers : List String} {arrival : Arrival}
    (opens : 0 < window) (cover : ttl ≤ windows * window) (known : arrival.peer ∈ peers)
    (within : arrival.checkedAt ≤ arrival.markedAt) (past : arrival.markedAt ≤ last)
    (young : last < arrival.markedAt + ttl)
    : ∃ index ∈ none :: (peers ×ˢ List.range windows).map some,
        part window last (last - ttl) index arrival = true := by
  by_cases early : arrival.checkedAt ≤ last - ttl ∧ last - ttl < arrival.markedAt
  · exact ⟨none, List.mem_cons_self, decide_eq_true early⟩
  · have late : last < arrival.checkedAt + ttl := by omega
    have split := Nat.div_add_mod (last - arrival.checkedAt) window
    have rest := Nat.mod_lt (last - arrival.checkedAt) opens
    have inside : (last - arrival.checkedAt) / window < windows := by
      refine Nat.div_lt_of_lt_mul ?_
      rw [Nat.mul_comm]
      omega
    refine ⟨some (arrival.peer, (last - arrival.checkedAt) / window), ?_, ?_⟩
    · refine List.mem_cons_of_mem _ (List.mem_map.mpr ⟨_, ?_, rfl⟩)
      exact List.mem_product.mpr ⟨known, List.mem_range.mpr inside⟩
    · simp only [part, inWindow, decide_true, Bool.true_and, decide_eq_true_eq]
      rw [Nat.mul_comm] at split
      omega

/-- With a bounded number of relaying peers the replay guard stores a bounded number of keys:
for each peer the limits of the windows that cover the time to live.
-/
theorem recent_length_le (lives : 0 < limits.replayTtl) (opens : 0 < limits.rateWindow)
    {arrivals : List Arrival} (timely : Timely arrivals) {peers : List String}
    (known : ∀ arrival ∈ (watch limits arrivals).passed, arrival.peer ∈ peers) {windows : Nat}
    (cover : limits.replayTtl ≤ windows * limits.rateWindow)
    : (watch limits arrivals).guards.recent.seen.entries.length
      ≤ peers.length * windows * limits.rateMaxPerWindow + 1 := by
  obtain ⟨last, _, remembers⟩ := watch_remembers lives timely
  have sublist := passed_sublist limits arrivals
  have young : (watch limits arrivals).guards.recent.seen.entries.length
      ≤ (watch limits arrivals).passed.countP
        (fun arrival => decide (last < arrival.markedAt + limits.replayTtl)) := by
    refine remembers.length_le.trans (le_of_eq ?_)
    rw [Watched.keys, List.countP_map]
    rfl
  have covered : (watch limits arrivals).passed.countP
        (fun arrival => decide (last < arrival.markedAt + limits.replayTtl))
      ≤ ((none :: (peers ×ˢ List.range windows).map some).map (fun index =>
          (watch limits arrivals).passed.countP
            (part limits.rateWindow last (last - limits.replayTtl) index))).sum :=
    Distinct.countP_le_sum (fun arrival member isYoung =>
      exists_part opens cover (known arrival member)
        (timely.within arrival (sublist.subset member))
        (remembers.past _ (List.mem_map_of_mem member)) (of_decide_eq_true isYoung))
  have crossing := straddling_le_one (timely.between.sublist sublist) (last - limits.replayTtl)
  have windowed : ((peers ×ˢ List.range windows).map (fun index =>
        (watch limits arrivals).passed.countP
          (part limits.rateWindow last (last - limits.replayTtl) (some index)))).sum
      ≤ peers.length * windows * limits.rateMaxPerWindow := by
    refine (List.sum_le_card_nsmul _ limits.rateMaxPerWindow ?_).trans (le_of_eq ?_)
    · intro count member
      obtain ⟨⟨peer, index⟩, _, rfl⟩ := List.mem_map.mp member
      exact passedIn_le timely peer _
    · rw [List.length_map, List.length_product, List.length_range, smul_eq_mul]
  rw [List.map_cons, List.sum_cons, List.map_map] at covered
  have total := young.trans (covered.trans (Nat.add_le_add crossing windowed))
  omega

end Runs

end Relay

end PerpDex
