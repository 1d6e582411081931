import PerpDex.Withdrawal.Reconcile

/-! What a verdict says of the chain.
A pass reads the escrow's sequence first and the validated ledger afterwards, and ledgers
close in between. A payment that lands between the two reads is then judged expired: its slot
was free at the first read, and its window is closed at the second.
-/

namespace PerpDex

/-- A validated transaction and what it does to the escrow's sequence. One that is sent with
a ticket leaves it as it was.
-/
structure ChainTx where
  hash : String
  sequence : UInt32
  next : UInt32
  grows : sequence ≤ next

structure ChainLedger where
  index : UInt32
  txs : List ChainTx

/-- Every transaction starts from the sequence that the one before it has left. -/
def InSequence : UInt32 → List ChainTx → Prop
  | _, [] => True
  | sequence, tx :: rest => tx.sequence = sequence ∧ InSequence tx.next rest

/-- The sequence after some transactions. -/
def sequenceAfter (sequence : UInt32) (txs : List ChainTx) : UInt32 :=
  (txs.getLast?.map ChainTx.next).getD sequence

/-- A run of validated ledgers from the reservation on. The payment of the entry, if it is in
a ledger, consumed the reserved slot there and the window was open.
-/
structure Chain (entry : PendingWithdrawal) (payment : String) where
  start : UInt32
  startIndex : UInt32
  ledgers : List ChainLedger
  reserved : start ≤ entry.sequence
  rising : (startIndex :: ledgers.map ChainLedger.index).Pairwise (· < ·)
  sequenced : InSequence start (ledgers.flatMap ChainLedger.txs)
  bound
    : ∀ ledger ∈ ledgers, ∀ tx ∈ ledger.txs, tx.hash = payment
      → tx.sequence = entry.sequence ∧ entry.sequence < tx.next
        ∧ ledger.index ≤ entry.lastLedgerSequence

namespace Chain

variable {entry : PendingWithdrawal} {payment : String} (chain : Chain entry payment)

/-- The transactions that are validated at an instant, which counts ledgers. -/
def txsAt (instant : Nat) : List ChainTx := (chain.ledgers.take instant).flatMap ChainLedger.txs

/-- The escrow's validated sequence at an instant. -/
def sequenceAt (instant : Nat) : UInt32 := sequenceAfter chain.start (chain.txsAt instant)

/-- The validated ledger at an instant. -/
def indexAt (instant : Nat) : UInt32 :=
  ((chain.ledgers.take instant).getLast?.map ChainLedger.index).getD chain.startIndex

/-- The payment is in a ledger up to an instant. -/
def Landed (instant : Nat) : Prop := ∃ tx ∈ chain.txsAt instant, tx.hash = payment

/-- Some transaction up to an instant has taken the reserved slot. -/
def Consumed (instant : Nat) : Prop :=
  ∃ tx ∈ chain.txsAt instant, tx.sequence ≤ entry.sequence ∧ entry.sequence < tx.next

/-- The verdict from a sequence read at the first instant and a ledger read at the second. -/
def verdict (first second : Nat) : Verdict :=
  classify (chain.sequenceAt first) (chain.indexAt second) entry

/-- The verdict says of the chain what it stands for. -/
structure Justified (first second : Nat) : Prop where
  expired : chain.verdict first second = .expired → ¬ chain.Landed second
  slotConsumed : chain.verdict first second = .slotConsumed → chain.Consumed first

/-- A ledger that is validated after the first instant and up to the second has the payment;
its slot was the next one at the first instant and its window has closed by the second.
-/
def LandsBetween (first second : Nat) : Prop :=
  (∃ ledger ∈ (chain.ledgers.take second).drop first, ∃ tx ∈ ledger.txs, tx.hash = payment)
  ∧ chain.sequenceAt first = entry.sequence
  ∧ entry.lastLedgerSequence < chain.indexAt second

end Chain

-----------------------------------------------------------------------------------------
-- Sequences
-----------------------------------------------------------------------------------------

theorem sequenceAfter_cons (sequence : UInt32) (tx : ChainTx) (rest : List ChainTx)
    : sequenceAfter sequence (tx :: rest) = sequenceAfter tx.next rest := by
  cases rest with
  | nil => rfl
  | cons other others => simp [sequenceAfter, List.getLast?_cons]

theorem InSequence.append {sequence : UInt32} {front back : List ChainTx}
    (follows : InSequence sequence (front ++ back))
    : InSequence sequence front := by
  induction front generalizing sequence with
  | nil => trivial
  | cons tx rest ih => exact ⟨follows.1, ih follows.2⟩

/-- The sequence only grows. -/
theorem InSequence.le {sequence : UInt32} {txs : List ChainTx} (follows : InSequence sequence txs)
    : sequence ≤ sequenceAfter sequence txs := by
  induction txs generalizing sequence with
  | nil => exact UInt32.le_refl _
  | cons tx rest ih =>
      rw [sequenceAfter_cons]
      have grows := tx.grows
      rw [follows.1] at grows
      exact UInt32.le_trans grows (ih follows.2)

/-- What a transaction has left behind it stays behind. -/
theorem InSequence.next_le {sequence : UInt32} {txs : List ChainTx}
    (follows : InSequence sequence txs)
    {tx : ChainTx} (member : tx ∈ txs)
    : tx.next ≤ sequenceAfter sequence txs := by
  induction txs generalizing sequence with
  | nil => exact absurd member List.not_mem_nil
  | cons first rest ih =>
      rw [sequenceAfter_cons]
      rcases List.mem_cons.mp member with rfl | deeper
      · exact follows.2.le
      · exact ih follows.2 deeper

/-- A slot that the sequence has passed was taken by some transaction. -/
theorem InSequence.consumed {sequence slot : UInt32} {txs : List ChainTx}
    (follows : InSequence sequence txs) (free : sequence ≤ slot)
    (passed : slot < sequenceAfter sequence txs)
    : ∃ tx ∈ txs, tx.sequence ≤ slot ∧ slot < tx.next := by
  induction txs generalizing sequence with
  | nil => exact absurd passed (UInt32.not_lt.mpr free)
  | cons tx rest ih =>
      by_cases taken : slot < tx.next
      · exact ⟨tx, List.mem_cons_self, by rw [follows.1]; exact free, taken⟩
      · rw [sequenceAfter_cons] at passed
        obtain ⟨later, member, takes⟩ := ih follows.2 (UInt32.not_lt.mp taken) passed
        exact ⟨later, List.mem_cons_of_mem _ member, takes⟩

namespace Chain

variable {entry : PendingWithdrawal} {payment : String} {chain : Chain entry payment}

theorem follows_at (chain : Chain entry payment) (instant : Nat)
    : InSequence chain.start (chain.txsAt instant) := by
  have whole := chain.sequenced
  rw [← List.take_append_drop instant chain.ledgers, List.flatMap_append] at whole
  exact whole.append

/-- A payment that has landed has moved the sequence past its slot. -/
theorem Landed.passed {instant : Nat} (landed : chain.Landed instant)
    : entry.sequence < chain.sequenceAt instant := by
  obtain ⟨tx, member, isPayment⟩ := landed
  obtain ⟨ledger, inChain, inLedger⟩ := List.mem_flatMap.mp member
  obtain ⟨-, beyond, -⟩ := chain.bound ledger (List.mem_of_mem_take inChain) tx inLedger isPayment
  exact UInt32.lt_of_lt_of_le beyond ((chain.follows_at instant).next_le member)

/-- A payment that has landed by the second instant and not by the first is in a ledger in
between.
-/
theorem Landed.between {first second : Nat} (landed : chain.Landed second)
    (notBefore : ¬ chain.Landed first)
    : ∃ ledger ∈ (chain.ledgers.take second).drop first, ∃ tx ∈ ledger.txs,
        tx.hash = payment := by
  obtain ⟨tx, member, isPayment⟩ := landed
  obtain ⟨ledger, inChain, inLedger⟩ := List.mem_flatMap.mp member
  rw [← List.take_append_drop first (chain.ledgers.take second)] at inChain
  rcases List.mem_append.mp inChain with early | between
  · rw [List.take_take] at early
    have isEarly : ledger ∈ chain.ledgers.take first :=
      (List.take_sublist_take_left (Nat.min_le_left first second)).subset early
    exact absurd ⟨tx, List.mem_flatMap.mpr ⟨ledger, isEarly, inLedger⟩, isPayment⟩ notBefore
  · exact ⟨ledger, between, tx, inLedger, isPayment⟩

/-- When the slot is judged free and the window closed. -/
theorem verdict_expired_iff {first second : Nat}
    : chain.verdict first second = .expired
      ↔ chain.sequenceAt first = entry.sequence
        ∧ entry.lastLedgerSequence < chain.indexAt second := by
  simp only [verdict, classify]
  split_ifs with consumed anomaly closed
  · simp only [false_iff, not_and]
    intro same
    rw [same] at consumed
    exact absurd consumed (UInt32.lt_irrefl _)
  · simp only [false_iff, not_and]
    intro same
    rw [same] at anomaly
    exact absurd anomaly (UInt32.lt_irrefl _)
  · have same : chain.sequenceAt first = entry.sequence :=
      UInt32.le_antisymm (UInt32.not_lt.mp consumed) (UInt32.not_lt.mp anomaly)
    simp [same, closed]
  · simp [closed]

theorem verdict_slotConsumed_iff {first second : Nat}
    : chain.verdict first second = .slotConsumed ↔ entry.sequence < chain.sequenceAt first := by
  simp only [verdict, classify]
  split_ifs with consumed anomaly closed
  all_goals simp [consumed]

end Chain

/-- For every chain and all instants of the two reads, a verdict says of the chain what it
stands for, exactly if the payment does not land between the reads.
-/
theorem verdict_justified_iff {entry : PendingWithdrawal} {payment : String}
    (chain : Chain entry payment) (first second : Nat)
    : chain.Justified first second ↔ ¬ chain.LandsBetween first second := by
  constructor
  · rintro ⟨expired, -⟩ ⟨⟨ledger, between, tx, inLedger, isPayment⟩, free, closed⟩
    refine expired (Chain.verdict_expired_iff.mpr ⟨free, closed⟩) ⟨tx, ?_, isPayment⟩
    exact List.mem_flatMap.mpr ⟨ledger, List.mem_of_mem_drop between, inLedger⟩
  · intro apart
    refine ⟨fun judged landed => ?_, fun judged => ?_⟩
    · obtain ⟨free, closed⟩ := Chain.verdict_expired_iff.mp judged
      have notBefore : ¬ chain.Landed first := by
        intro before
        have passed := before.passed
        rw [free] at passed
        exact UInt32.lt_irrefl _ passed
      exact apart ⟨landed.between notBefore, free, closed⟩
    · exact (chain.follows_at first).consumed chain.reserved
        (Chain.verdict_slotConsumed_iff.mp judged)

/-- A withdrawal in slot 7 that may land up to ledger 12. -/
def sampleWithdrawal : PendingWithdrawal where
  escrow := "rEscrow"
  sequence := 7
  lastLedgerSequence := 12
  amountDrops := 1000000
  destination := "rUser"
  destinationTag := none
  submittedHash := some "AB"
  userId := "rUser"
  reservedAtMs := 0

/-- The payment is in ledger 11, and two ledgers follow. -/
def paidChain : Chain sampleWithdrawal "AB" where
  start := 7
  startIndex := 10
  ledgers := [⟨11, [⟨"AB", 7, 8, by decide⟩]⟩, ⟨12, []⟩, ⟨13, []⟩]
  reserved := by decide
  rising := by decide
  sequenced := ⟨rfl, trivial⟩
  bound := by simp [sampleWithdrawal]

/-- The sequence is read before ledger 11 and the validated ledger after ledger 13: the
payment is judged expired although it is in ledger 11.
-/
theorem landed_payment_judged_expired
    : paidChain.verdict 0 3 = .expired ∧ paidChain.Landed 3 ∧ ¬ paidChain.Justified 0 3 := by
  have judged : paidChain.verdict 0 3 = .expired := by decide
  have landed : paidChain.Landed 3 :=
    ⟨⟨"AB", 7, 8, by decide⟩, by simp [Chain.txsAt, paidChain], rfl⟩
  exact ⟨judged, landed, fun justified => justified.expired judged landed⟩

end PerpDex
