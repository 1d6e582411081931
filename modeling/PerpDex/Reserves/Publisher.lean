import PerpDex.EnclaveReply
import PerpDex.Lib.Except
import PerpDex.Lib.Hex
import PerpDex.Lib.Run

/-! The publication of reserves, cycle by cycle.
The enclave computes and signs a commitment for the next epoch, and the publisher relays it to
the chain. On the way it puts the figures of the reply where the public endpoint reads them,
before the reply has been looked at any further and before anything is submitted.
-/

namespace PerpDex

namespace Reserves

-----------------------------------------------------------------------------------------
-- One cycle
-----------------------------------------------------------------------------------------

structure ReservesFigures where
  rlusdLiabilities : Int
  xrpLiabilities : Int
  custodyRlusd : Int
  custodyXrp : Int
  epoch : UInt64
deriving DecidableEq

/-- What the Safe is asked to execute, with the signature of the enclave. -/
structure Submission where
  epoch : UInt64
  root : List UInt8
  snapshotHash : List UInt8
  ownerSig : List UInt8
deriving DecidableEq

/-- What the chain and the enclave answer in one cycle: the epoch on chain, the nonce of the
Safe, the reply to `reserves_commit` for an epoch and a nonce, and the hash of the submitted
transaction.
-/
structure Cycle where
  queryLatestReserves : Except String UInt64
  querySafeNonce : Except String UInt64
  reservesCommit : UInt64 → UInt64 → EnclaveReply
  submitReservesViaSafe : Submission → Except String String

/-- An error says what was being done when it came up. -/
def context {α : Type} (doing : String) : Except String α → Except String α
  | .ok value => .ok value
  | .error reason => .error (doing ++ ": " ++ reason)

/-- 32 bytes in hexadecimal out of a JSON object. -/
def hex32 (value : Json) (key : String) : Except String (List UInt8) := do
  let text ← okOr ((value.get key).bind Json.asStr) ("missing string field `" ++ key ++ "`")
  let bytes ← okOr (Hex.decodeChars (Hex.trimStart0x text.toList)) ("decode `" ++ key ++ "`")
  if bytes.length = 32 then .ok bytes else .error ("`" ++ key ++ "` is not 32 bytes")

/-- A figure of a reply, if it is there as a whole number. -/
def figure (resp : Json) (key : String) : Option Int := (resp.get key).bind Json.asI64

/-- The figures as they are cached; one that is missing counts as zero. -/
def figuresOf (epoch : UInt64) (resp : Json) : ReservesFigures where
  rlusdLiabilities := (figure resp "rlusd_liabilities").getD 0
  xrpLiabilities := (figure resp "xrp_liabilities").getD 0
  custodyRlusd := (figure resp "custody_rlusd").getD 0
  custodyXrp := (figure resp "custody_xrp").getD 0
  epoch := epoch

/-- What is submitted for a reply. The recovery id is cut to a byte. -/
def submissionOf (epoch : UInt64) (resp : Json) : Except String Submission := do
  let root ← hex32 resp "root"
  let snapshotHash ← hex32 resp "snapshot_hash"
  let sig ← okOr (resp.get "signature") "response has no `signature`"
  let r ← hex32 sig "r"
  let s ← hex32 sig "s"
  let v ← okOr ((sig.get "v").bind Json.asU64) "signature has no `v`"
  .ok { epoch, root, snapshotHash, ownerSig := r ++ s ++ [v.toUInt8] }

/-- The rest of a cycle once the figures are cached. -/
def relay (cycle : Cycle) (epoch : UInt64) (resp : Json) : Except String String := do
  let submission ← submissionOf epoch resp
  context "submit Safe execTransaction" (cycle.submitReservesViaSafe submission)

/-- The cache after a cycle, and the result of the cycle. -/
def runReservesCommitOnce (cycle : Cycle) (lastFigures : Option ReservesFigures)
    : Option ReservesFigures × Except String String :=
  match context "query latestReserves" cycle.queryLatestReserves with
  | .error reason => (lastFigures, .error reason)
  | .ok latest =>
      let epoch := latest + 1
      match context "query Safe nonce" cycle.querySafeNonce with
      | .error reason => (lastFigures, .error reason)
      | .ok safeNonce =>
          match context "enclave reserves_commit refused"
              (cycle.reservesCommit epoch safeNonce) with
          | .error reason => (lastFigures, .error reason)
          | .ok resp => (some (figuresOf epoch resp), relay cycle epoch resp)

-----------------------------------------------------------------------------------------
-- What a cycle comes to
-----------------------------------------------------------------------------------------

/-- The epoch and the reply of a cycle in which the enclave replies. -/
def Cycle.committed (cycle : Cycle) : Option (UInt64 × Json) :=
  match cycle.queryLatestReserves, cycle.querySafeNonce with
  | .ok latest, .ok safeNonce =>
      match cycle.reservesCommit (latest + 1) safeNonce with
      | .ok resp => some (latest + 1, resp)
      | .error _ => none
  | _, _ => none

/-- A cycle without a reply fails and leaves the cache. -/
theorem run_of_uncommitted {cycle : Cycle} (uncommitted : cycle.committed = none)
    (lastFigures : Option ReservesFigures)
    : ∃ reason, runReservesCommitOnce cycle lastFigures = (lastFigures, .error reason) := by
  unfold Cycle.committed at uncommitted
  unfold runReservesCommitOnce
  cases latest : cycle.queryLatestReserves with
  | error reason => exact ⟨_, rfl⟩
  | ok onChain =>
      cases nonce : cycle.querySafeNonce with
      | error reason => exact ⟨_, rfl⟩
      | ok safeNonce =>
          cases reply : cycle.reservesCommit (onChain + 1) safeNonce with
          | error reason =>
              simp only [context, reply]
              exact ⟨_, rfl⟩
          | ok resp => simp [latest, nonce, reply] at uncommitted

/-- A cycle with a reply has the figures of the reply in the cache. -/
theorem run_of_committed {cycle : Cycle} {epoch : UInt64} {resp : Json}
    (committed : cycle.committed = some (epoch, resp)) (lastFigures : Option ReservesFigures)
    : runReservesCommitOnce cycle lastFigures
      = (some (figuresOf epoch resp), relay cycle epoch resp) := by
  unfold Cycle.committed at committed
  unfold runReservesCommitOnce
  cases latest : cycle.queryLatestReserves with
  | error reason => simp [latest] at committed
  | ok onChain =>
      cases nonce : cycle.querySafeNonce with
      | error reason => simp [latest, nonce] at committed
      | ok safeNonce =>
          cases reply : cycle.reservesCommit (onChain + 1) safeNonce with
          | error reason => simp [latest, nonce, reply] at committed
          | ok answered =>
              obtain ⟨rfl, rfl⟩ : onChain + 1 = epoch ∧ answered = resp := by
                simpa [latest, nonce, reply] using committed
              simp only [context, reply]

-----------------------------------------------------------------------------------------
-- Runs
-----------------------------------------------------------------------------------------

/-- The cache between cycles, and the epoch and the reply of the last cycle whose submission
succeeded.
-/
structure Publisher where
  cache : Option ReservesFigures
  published : Option (UInt64 × Json)

def Publisher.fresh : Publisher := ⟨none, none⟩

def Publisher.step (publisher : Publisher) (cycle : Cycle) : Publisher :=
  let result := runReservesCommitOnce cycle publisher.cache
  { cache := result.1
    published :=
      match result.2 with
      | .ok _ => cycle.committed
      | .error _ => publisher.published }

/-- The enclave reported these figures. -/
structure Reported (figures : ReservesFigures) (resp : Json) : Prop where
  rlusdLiabilities : figure resp "rlusd_liabilities" = some figures.rlusdLiabilities
  xrpLiabilities : figure resp "xrp_liabilities" = some figures.xrpLiabilities
  custodyRlusd : figure resp "custody_rlusd" = some figures.custodyRlusd
  custodyXrp : figure resp "custody_xrp" = some figures.custodyXrp

/-- The cached figures are those of the last publication, as the enclave reported them. -/
def DescribesPublished (publisher : Publisher) : Prop :=
  (publisher.cache = none ∧ publisher.published = none)
  ∨ ∃ figures resp, publisher.cache = some figures
      ∧ publisher.published = some (figures.epoch, resp) ∧ Reported figures resp

/-- A cycle that returns an error leaves the cache as it was. -/
def ErrorKeepsCache (publisher : Publisher) (cycle : Cycle) : Prop :=
  ∀ reason, (runReservesCommitOnce cycle publisher.cache).2 = .error reason
  → (publisher.step cycle).cache = publisher.cache

/-- All four figures are in the reply as whole numbers. -/
def FullyReported (resp : Json) : Prop :=
  ∀ key ∈ ["rlusd_liabilities", "xrp_liabilities", "custody_rlusd", "custody_xrp"],
    (figure resp key).isSome = true

/-- The reply has both hashes and the signature, and the Safe transaction goes through. -/
def Submits (cycle : Cycle) (epoch : UInt64) (resp : Json) : Prop :=
  ∃ submission hash, submissionOf epoch resp = .ok submission
    ∧ cycle.submitReservesViaSafe submission = .ok hash

/-- If the enclave replies, then either it reports all figures and the submission succeeds, or
the submission fails and the figures of the reply are the ones already cached.
-/
def Upheld (publisher : Publisher) (cycle : Cycle) : Prop :=
  ∀ epoch resp, cycle.committed = some (epoch, resp)
  → (FullyReported resp ∧ Submits cycle epoch resp)
    ∨ (¬ Submits cycle epoch resp ∧ publisher.cache = some (figuresOf epoch resp))

theorem relay_eq_ok_iff {cycle : Cycle} {epoch : UInt64} {resp : Json}
    : (∃ hash, relay cycle epoch resp = .ok hash) ↔ Submits cycle epoch resp := by
  unfold relay Submits
  constructor
  · rintro ⟨hash, relayed⟩
    obtain ⟨submission, isSubmission, submitted⟩ := Except.bind_eq_ok_iff.mp relayed
    refine ⟨submission, hash, isSubmission, ?_⟩
    cases answer : cycle.submitReservesViaSafe submission with
    | error reason =>
        rw [answer] at submitted
        cases submitted
    | ok given =>
        rw [answer] at submitted
        exact submitted
  · rintro ⟨submission, hash, isSubmission, submitted⟩
    refine ⟨hash, Except.bind_eq_ok_iff.mpr ⟨submission, isSubmission, ?_⟩⟩
    rw [submitted]
    rfl

theorem reported_figuresOf_iff {epoch : UInt64} {resp : Json}
    : Reported (figuresOf epoch resp) resp ↔ FullyReported resp := by
  have whole (key : String) : figure resp key = some ((figure resp key).getD 0)
      ↔ (figure resp key).isSome = true := by
    cases figure resp key <;> simp
  constructor
  · intro reported key member
    simp only [List.mem_cons, List.not_mem_nil, or_false] at member
    rcases member with rfl | rfl | rfl | rfl
    · exact (whole _).mp reported.rlusdLiabilities
    · exact (whole _).mp reported.xrpLiabilities
    · exact (whole _).mp reported.custodyRlusd
    · exact (whole _).mp reported.custodyXrp
  · intro reported
    exact ⟨(whole _).mpr (reported _ (by simp)), (whole _).mpr (reported _ (by simp)),
      (whole _).mpr (reported _ (by simp)), (whole _).mpr (reported _ (by simp))⟩

/-- What one cycle needs for the cache to go on describing what is published. -/
theorem step_upheld_iff (publisher : Publisher) (cycle : Cycle)
    (describes : DescribesPublished publisher)
    : (DescribesPublished (publisher.step cycle) ∧ ErrorKeepsCache publisher cycle)
      ↔ Upheld publisher cycle := by
  unfold ErrorKeepsCache Upheld Publisher.step
  cases reply : cycle.committed with
  | none =>
      obtain ⟨reason, run⟩ := run_of_uncommitted reply publisher.cache
      rw [run]
      exact ⟨fun _ _ _ impossible => (by cases impossible),
        fun _ => ⟨describes, fun _ _ => rfl⟩⟩
  | some pair =>
      obtain ⟨epoch, resp⟩ := pair
      rw [run_of_committed reply publisher.cache]
      cases relayed : relay cycle epoch resp with
      | ok hash =>
          have submits : Submits cycle epoch resp := relay_eq_ok_iff.mp ⟨hash, relayed⟩
          constructor
          · rintro ⟨⟨nothing, -⟩ | ⟨figures, answered, cached, published, reported⟩, -⟩ _ _ ⟨⟩
            · cases nothing
            · cases cached
              cases published
              exact .inl ⟨reported_figuresOf_iff.mp reported, submits⟩
          · intro upheld
            refine ⟨.inr ⟨_, resp, rfl, rfl, ?_⟩, fun _ failed => (by cases failed)⟩
            rcases upheld epoch resp rfl with ⟨reported, -⟩ | ⟨failed, -⟩
            · exact reported_figuresOf_iff.mpr reported
            · exact absurd submits failed
      | error reason =>
          have fails : ¬ Submits cycle epoch resp := by
            intro submits
            obtain ⟨hash, succeeded⟩ := relay_eq_ok_iff.mpr submits
            rw [relayed] at succeeded
            cases succeeded
          constructor
          · rintro ⟨-, keeps⟩ _ _ ⟨⟩
            exact .inr ⟨fails, (keeps reason rfl).symm⟩
          · intro upheld
            have same : publisher.cache = some (figuresOf epoch resp) :=
              (upheld epoch resp rfl).elim (fun done => absurd done.2 fails) And.right
            dsimp only
            rw [← same]
            exact ⟨describes, fun _ _ => rfl⟩

/-- In every run, the cache describes the last publication at all times and no cycle that
fails changes it, exactly if every cycle in which the enclave replies reports all figures and
gets its submission through, or fails with the figures that are cached already.
-/
theorem cache_describes_published_iff (cycles : List Cycle)
    : ((∀ front, front <+: cycles
          → DescribesPublished (front.foldl Publisher.step .fresh))
        ∧ Along Publisher.step ErrorKeepsCache .fresh cycles)
      ↔ Along Publisher.step Upheld .fresh cycles :=
  Along.states_and_iff step_upheld_iff (.inl ⟨rfl, rfl⟩) cycles

/-- A whole reply of the enclave. -/
def wholeReply : Json := .object [
  ("rlusd_liabilities", .number (.posInt 500)),
  ("xrp_liabilities", .number (.posInt 0)),
  ("custody_rlusd", .number (.posInt 600)),
  ("custody_xrp", .number (.posInt 0)),
  ("root", .string "0x1111111111111111111111111111111111111111111111111111111111111111"),
  ("snapshot_hash", .string "2222222222222222222222222222222222222222222222222222222222222222"),
  ("signature", .object [
    ("r", .string "3333333333333333333333333333333333333333333333333333333333333333"),
    ("s", .string "4444444444444444444444444444444444444444444444444444444444444444"),
    ("v", .number (.posInt 27))
  ])
]

/-- A cycle whose transaction the Safe does not execute. -/
def rejectedCycle : Cycle where
  queryLatestReserves := .ok 4
  querySafeNonce := .ok 9
  reservesCommit := fun _ _ => .ok wholeReply
  submitReservesViaSafe := fun _ => .error "send Safe execTransaction"

/-- The cycle fails, and its figures are cached for an epoch that has never been published. -/
theorem rejected_cycle_changes_cache
    : runReservesCommitOnce rejectedCycle none
        = (some ⟨500, 0, 600, 0, 5⟩,
          .error "submit Safe execTransaction: send Safe execTransaction")
      ∧ ¬ ErrorKeepsCache .fresh rejectedCycle
      ∧ ¬ DescribesPublished (Publisher.fresh.step rejectedCycle) := by
  have run : runReservesCommitOnce rejectedCycle none
      = (some ⟨500, 0, 600, 0, 5⟩,
        .error "submit Safe execTransaction: send Safe execTransaction") := by
    decide +kernel
  have after : Publisher.fresh.step rejectedCycle = ⟨some ⟨500, 0, 600, 0, 5⟩, none⟩ := by
    unfold Publisher.step
    rw [show Publisher.fresh.cache = none from rfl, run]
    rfl
  refine ⟨run, fun keeps => ?_, ?_⟩
  · have unchanged := keeps _ (congrArg Prod.snd run)
    rw [after] at unchanged
    cases unchanged
  · rw [after]
    rintro (⟨nothing, -⟩ | ⟨figures, resp, -, published, -⟩)
    · cases nothing
    · cases published

end Reserves

end PerpDex
