import PerpDex.P2p.Refinement

/-! What a validator can be made to replay.
The terms check ties the header of a message to the signed body, but the calls come from
its fills; and the cursor of the loop never rejects a batch, so a batch that is delivered
again is replayed again.
-/

namespace PerpDex

open OrderBook

/-- The number a text shows, white space around it aside: of any size and with any number of
decimals, as it is handed on to the enclave.
-/
def amount (text : String) : Option ℚ := Text.parseDecimal (Text.trim text.toList)

/-- One fill of one published batch. -/
structure FillKey where
  sequencerId : String
  seqNum : Nat
  orderIndex : Nat
  fillIndex : Nat
deriving DecidableEq

/-- Leaders number their batches, so a batch is known by its leader and number. -/
def OrderBatch.key (batch : OrderBatch) : String × Nat := (batch.sequencerId, batch.seqNum)

def ReplayedFill.key (batch : OrderBatch) (replayed : ReplayedFill) : FillKey where
  sequencerId := batch.sequencerId
  seqNum := batch.seqNum
  orderIndex := replayed.orderIndex
  fillIndex := replayed.fillIndex

section Deliveries

variable (crypto : Crypto) (readJson : List UInt8 → Option Json) (vaultUserIds : List String)

/-- The fills opened over a sequence of deliveries. -/
def openedFills (loop : ReplayLoop) : List Delivery → List FillKey
  | [] => []
  | delivery :: rest =>
      (loop.receive crypto readJson vaultUserIds delivery).2.map
          (ReplayedFill.key delivery.batch)
        ++ openedFills (loop.receive crypto readJson vaultUserIds delivery).1 rest

/-- The fills of a batch that its replay opens. -/
def replayableFills (batch : OrderBatch) : List ReplayedFill :=
  (replayOrders crypto readJson vaultUserIds 0 batch.orders).1

/-- Does a delivery get through to the enclave? The loop is still running, the gates let the
batch pass, and it holds a fill of an order that is verified.
-/
def getsThrough (loop : ReplayLoop) (delivery : Delivery) : Bool :=
  loop.running && passesGates crypto delivery
  && !(replayableFills crypto readJson vaultUserIds delivery.batch).isEmpty

/-- The batches that get through, over a sequence of deliveries. -/
def batchesThrough (loop : ReplayLoop) : List Delivery → List OrderBatch
  | [] => []
  | delivery :: rest =>
      (if getsThrough crypto readJson vaultUserIds loop delivery then [delivery.batch] else [])
        ++ batchesThrough (loop.receive crypto readJson vaultUserIds delivery).1 rest

/-- Opened fills are those of the batches that get through, by induction over the
deliveries.
-/
theorem openedFills_eq (loop : ReplayLoop) (deliveries : List Delivery)
    : openedFills crypto readJson vaultUserIds loop deliveries
      = (batchesThrough crypto readJson vaultUserIds loop deliveries).flatMap
          (fun batch =>
            (replayableFills crypto readJson vaultUserIds batch).map
              (ReplayedFill.key batch)) := by
  induction deliveries generalizing loop with
  | nil => rfl
  | cons delivery rest ih =>
      rw [openedFills, batchesThrough, List.flatMap_append, ih, ReplayLoop.receive_replayed]
      congr 1
      by_cases passes : (loop.running && passesGates crypto delivery) = true
      · cases fills : (replayOrders crypto readJson vaultUserIds 0 delivery.batch.orders).1 with
        | nil => simp [getsThrough, replayableFills, passes, fills]
        | cons first later => simp [getsThrough, replayableFills, passes, fills]
      · simp [getsThrough, passes]

theorem batchesThrough_mem {loop : ReplayLoop} {deliveries : List Delivery}
    {batch : OrderBatch}
    (member : batch ∈ batchesThrough crypto readJson vaultUserIds loop deliveries)
    : (∃ delivery ∈ deliveries, delivery.batch = batch)
      ∧ replayableFills crypto readJson vaultUserIds batch ≠ [] := by
  induction deliveries generalizing loop with
  | nil => exact absurd member List.not_mem_nil
  | cons delivery rest ih =>
      rcases List.mem_append.mp member with here | later
      · split_ifs at here with through
        · rw [List.mem_singleton.mp here]
          simp only [getsThrough, Bool.and_eq_true, Bool.not_eq_true', List.isEmpty_eq_false_iff]
            at through
          exact ⟨⟨delivery, List.mem_cons_self, rfl⟩, through.2⟩
        · exact absurd here List.not_mem_nil
      · obtain ⟨⟨origin, listed, same⟩, some'⟩ := ih later
        exact ⟨⟨origin, List.mem_cons_of_mem _ listed, same⟩, some'⟩

/-- The replay of a batch opens each of its fills once, by induction over its orders. -/
theorem replayOrders_places (index : Nat) (orders : List OrderMessage)
    : (∀ replayed ∈ (replayOrders crypto readJson vaultUserIds index orders).1,
        index ≤ replayed.orderIndex)
      ∧ ((replayOrders crypto readJson vaultUserIds index orders).1.map
          (fun replayed => (replayed.orderIndex, replayed.fillIndex))).Nodup := by
  induction orders generalizing index with
  | nil => exact ⟨fun _ member => absurd member List.not_mem_nil, List.nodup_nil⟩
  | cons order rest ih =>
      obtain ⟨later, distinct⟩ := ih (index + 1)
      simp only [replayOrders]
      cases verifyReplicatedOrder crypto readJson order vaultUserIds with
      | error failure =>
          cases failure with
          | panicked => exact ⟨fun _ member => absurd member List.not_mem_nil, List.nodup_nil⟩
          | refused why =>
              exact ⟨fun replayed member => (Nat.le_succ _).trans (later replayed member),
                distinct⟩
      | ok _ =>
          have places : (order.fills.zipIdx.map
              (fun place => ReplayedFill.mk index place.2 order place.1)).map
                (fun replayed => (replayed.orderIndex, replayed.fillIndex))
              = (List.range' 0 order.fills.length).map (fun place => (index, place)) := by
            rw [List.map_map, ← List.zipIdx_map_snd 0 order.fills, List.map_map]
            rfl
          refine ⟨fun replayed member => ?_, ?_⟩
          · rcases List.mem_append.mp member with here | after
            · obtain ⟨_, _, rfl⟩ := List.mem_map.mp here
              exact le_rfl
            · exact (Nat.le_succ _).trans (later replayed after)
          · rw [List.map_append, List.nodup_append, places]
            refine ⟨?_, distinct, ?_⟩
            · exact List.Nodup.map (fun _ _ same => (Prod.mk.inj same).2) List.nodup_range'
            · intro place here other after
              obtain ⟨_, _, rfl⟩ := List.mem_map.mp here
              obtain ⟨replayed, listed, rfl⟩ := List.mem_map.mp after
              intro same
              have above := later replayed listed
              have level := (Prod.mk.inj same).1
              omega

theorem replayableFills_nodup (batch : OrderBatch)
    : ((replayableFills crypto readJson vaultUserIds batch).map
        (ReplayedFill.key batch)).Nodup := by
  have places := (replayOrders_places crypto readJson vaultUserIds 0 batch.orders).2
  refine List.Nodup.of_map (fun key => (key.orderIndex, key.fillIndex)) ?_
  rw [List.map_map]
  exact places

end Deliveries

/-- Nonempty groups of distinct members, each member telling the key of its group, are
distinct as a whole exactly if no key occurs twice.
-/
theorem nodup_flatMap_iff {α β κ : Type} {groups : List α} {members : α → List β} {key : α → κ}
    {owner : β → κ} (tells : ∀ group, ∀ member ∈ members group, owner member = key group)
    (distinct : ∀ group ∈ groups, (members group).Nodup)
    (inhabited : ∀ group ∈ groups, members group ≠ [])
    (keyed : ∀ group ∈ groups, ∀ other ∈ groups, key group = key other → group = other)
    : (groups.flatMap members).Nodup ↔ (groups.map key).Nodup := by
  have keys : (groups.map key).Nodup ↔ groups.Pairwise (fun left right => key left ≠ key right) :=
    List.pairwise_map
  rw [List.nodup_flatMap, keys]
  constructor
  · intro given
    rcases given with ⟨_, apart⟩
    refine apart.imp_of_mem ?_
    intro group other listed otherListed disjoint same
    obtain ⟨member, rest, shape⟩ := List.exists_cons_of_ne_nil (inhabited group listed)
    have present : member ∈ members group := shape ▸ List.mem_cons_self
    have again : member ∈ members other := keyed group listed other otherListed same ▸ present
    exact disjoint present again
  · intro apart
    refine ⟨distinct, apart.imp ?_⟩
    intro group other differ member here there
    exact differ ((tells group member here).symm.trans (tells other member there))

/-- Over any deliveries of batches the leaders published under numbers of their own, no
fill is opened twice exactly if no batch gets through twice.
-/
theorem replayed_at_most_once_iff (crypto : Crypto) (readJson : List UInt8 → Option Json)
    (vaultUserIds : List String) (published : List OrderBatch) (deliveries : List Delivery)
    (numbered
      : ∀ batch ∈ published, ∀ other ∈ published, batch.key = other.key → batch = other)
    (delivered : ∀ delivery ∈ deliveries, delivery.batch ∈ published)
    : (openedFills crypto readJson vaultUserIds .start deliveries).Nodup
      ↔ ((batchesThrough crypto readJson vaultUserIds .start deliveries).map
          OrderBatch.key).Nodup := by
  have listed : ∀ batch ∈ batchesThrough crypto readJson vaultUserIds .start deliveries,
      batch ∈ published := by
    intro batch member
    obtain ⟨⟨delivery, present, rfl⟩, _⟩ :=
      batchesThrough_mem crypto readJson vaultUserIds member
    exact delivered delivery present
  rw [openedFills_eq]
  refine @nodup_flatMap_iff _ _ _ _ _ _
    (fun key : FillKey => (key.sequencerId, key.seqNum)) ?_ ?_ ?_ ?_
  · intro batch key member
    obtain ⟨_, _, rfl⟩ := List.mem_map.mp member
    rfl
  · exact fun batch _ => replayableFills_nodup crypto readJson vaultUserIds batch
  · intro batch member empty
    exact (batchesThrough_mem crypto readJson vaultUserIds member).2 (List.map_eq_nil_iff.mp empty)
  · exact fun batch member other otherMember =>
      numbered batch (listed batch member) other (listed other otherMember)

/-- A batch that got through and left the loop running gets through again. -/
theorem redelivery_reopens {crypto : Crypto} {readJson : List UInt8 → Option Json}
    {vaultUserIds : List String} {loop : ReplayLoop} {delivery : Delivery}
    (through : getsThrough crypto readJson vaultUserIds loop delivery = true)
    (survives
      : (replayOrders crypto readJson vaultUserIds 0 delivery.batch.orders).2 = true)
    : ¬ (openedFills crypto readJson vaultUserIds loop [delivery, delivery]).Nodup := by
  simp only [getsThrough, Bool.and_eq_true, Bool.not_eq_true', List.isEmpty_eq_false_iff]
    at through
  obtain ⟨⟨running, passes⟩, some'⟩ := through
  have first := ReplayLoop.receive_passed crypto readJson vaultUserIds running passes
  have again := @ReplayLoop.receive_passed crypto readJson vaultUserIds
    ⟨delivery.batch.seqNum, true⟩ delivery rfl passes
  obtain ⟨fill, rest, shape⟩ := List.exists_cons_of_ne_nil some'
  have opened : (replayOrders crypto readJson vaultUserIds 0 delivery.batch.orders).1
      = fill :: rest := shape
  intro distinct
  simp only [openedFills, first, survives, again, opened, List.map_cons] at distinct
  simp at distinct

/-- The batch of the taker's buy, as it arrives at a validator. -/
def boughtDelivery (batch : OrderBatch) : Delivery :=
  ⟨batch, some "leader", some "leader", false, 813_315_200⟩

/-- The published buy gets through and leaves the loop running. -/
theorem boughtDelivery_through
    : ∃ batch,
        (offeredRun buyOneRequest).published = some batch
        ∧ (∀ loop : ReplayLoop,
            loop.running = true
            → getsThrough sampleCrypto sampleJson [] loop (boughtDelivery batch) = true)
        ∧ (replayOrders sampleCrypto sampleJson [] 0 batch.orders).2 = true := by
  have delivered : (offeredRun buyOneRequest).published.any
      (fun batch => !batchTimeSkip batch.timestamp 813_315_200) = true := by decide +kernel
  obtain ⟨batch, published, timely⟩ := (Option.any_eq_true _ _).mp delivered
  obtain ⟨_, submission, _, _, publishes⟩ :=
    submitOrderInner_publishes (grantingPerp "1000.0" []) sampleCrypto offeredEngine_inv published
  have passes := publishes.passes (by simpa using timely)
  have authorized : AuthorizedFor sampleCrypto sampleJson [] buyOneRequest offeredEngine.book :=
    buyOneRequest_authorized
  have verified := (publishes.authorized_iff sampleJson []).mpr authorized
  obtain ⟨trade, rest, trades⟩ := List.exists_cons_of_ne_nil publishes.traded
  have fills : (publishedMessage buyOneRequest submission).fills
      = fillMessage trade :: rest.map fillMessage := by
    simp [publishedMessage, orderMessage, trades]
  refine ⟨batch, published, fun loop running => ?_, ?_⟩
  · have gates : passesGates sampleCrypto (boughtDelivery batch) = true := passes
    have some' : (replayableFills sampleCrypto sampleJson [] batch).isEmpty = false := by
      simp [replayableFills, publishes.orders, replayOrders, verified, fills]
    simp only [getsThrough, running, gates, Bool.true_and, Bool.not_eq_true']
    exact some'
  · simp [publishes.orders, replayOrders, verified]

/-- Delivered once, the fill of the buy is opened once. -/
theorem replayed_once_buy
    : ∃ batch,
        (offeredRun buyOneRequest).published = some batch
        ∧ (openedFills sampleCrypto sampleJson [] .start [boughtDelivery batch]).Nodup := by
  obtain ⟨batch, published, _, _⟩ := boughtDelivery_through
  refine ⟨batch, published, ?_⟩
  refine (replayed_at_most_once_iff sampleCrypto sampleJson [] [batch] [boughtDelivery batch]
    ?_ ?_).mpr ?_
  · intro one isOne other isOther _
    rw [List.mem_singleton.mp isOne, List.mem_singleton.mp isOther]
  · intro delivery member
    rw [List.mem_singleton.mp member]
    exact List.mem_singleton_self _
  · simp only [batchesThrough]
    split_ifs
    · exact List.nodup_singleton _
    · exact List.nodup_nil

/-- Delivered twice, it is opened twice. -/
theorem redelivered_buy_opens_twice
    : ∃ batch,
        (offeredRun buyOneRequest).published = some batch
        ∧ ¬ (openedFills sampleCrypto sampleJson [] .start
            [boughtDelivery batch, boughtDelivery batch]).Nodup := by
  obtain ⟨batch, published, through, survives⟩ := boughtDelivery_through
  exact ⟨batch, published, redelivery_reopens (through .start rfl) survives⟩

end PerpDex
