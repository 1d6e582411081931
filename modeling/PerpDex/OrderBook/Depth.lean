import PerpDex.Lib.StableSort
import PerpDex.OrderBook.Allotment
import PerpDex.OrderBook.Reference

/-! The market data of the book: its depth by price and its best prices.
A depth lists the best prices at which orders rest, each with all that is open at it.
-/

namespace PerpDex

open OrderBook

namespace OrderBook

/-- `total_size` of a level. -/
def totalSize (level : PriceLevel) : FP8 := (level.map Order.remaining).foldl FP8.add .zero

/-- The best levels of a side, best first. -/
def depthOf (side : Side) (levels : Levels) (count : Nat) : List (FP8 × FP8) :=
  ((priority side levels).take count).map (fun entry => (FP8.ofRaw entry.1, totalSize entry.2))

/-- Bids from the highest price on, asks from the lowest. -/
def depth (book : OrderBook) (levels : Nat) : List (FP8 × FP8) × List (FP8 × FP8) :=
  (depthOf .long book.bids levels, depthOf .short book.asks levels)

def bestBid (book : OrderBook) : Option FP8 := book.bids.keys.getLast?.map FP8.ofRaw

def bestAsk (book : OrderBook) : Option FP8 := book.asks.keys.head?.map FP8.ofRaw

/-- The sum of the two prices is an `i64`. -/
def midPrice (book : OrderBook) : Option FP8 :=
  match book.bestBid, book.bestAsk with
  | some bid, some ask => some (FP8.ofRaw ((wrapI64 (bid.raw + ask.raw)).tdiv 2))
  | _, _ => none

end OrderBook

/-- Does a price of a side come before another one? -/
def Better (side : Side) (price other : Int) : Prop :=
  match side with
  | .long => other < price
  | .short => price < other

instance (side : Side) (price other : Int) : Decidable (Better side price other) :=
  match side with
  | .long => inferInstanceAs (Decidable (other < price))
  | .short => inferInstanceAs (Decidable (price < other))

theorem Better.asymm {side : Side} {price other : Int} (better : Better side price other)
    : ¬ Better side other price := by
  cases side with
  | long => exact lt_asymm better
  | short => exact lt_asymm better

/-- The prices of a side at which some orders rest. -/
def pricesOf (side : Side) (orders : List Order) : List Int :=
  (orders.filter (fun order => order.side = side)).map (fun order => order.price.raw)

/-- What is open at a price of a side. -/
def openAt (side : Side) (orders : List Order) (price : Int) : Int :=
  ((orders.filter (fun order => order.side = side ∧ order.price.raw = price)).map
    Order.openRaw).sum

/-- A side of a depth: the levels go from better to worse, and they are those of the prices with
orders that fewer other prices are better than, each with what is open at it, as an `i64`.
-/
structure DepthOf (side : Side) (orders : List Order) (count : Nat) (levels : List (FP8 × FP8))
    : Prop where
  ordered : levels.Pairwise (fun left right => Better side left.1.raw right.1.raw)
  listed
    : ∀ price size,
        (price, size) ∈ levels
        ↔ price.raw ∈ pricesOf side orders
          ∧ ((pricesOf side orders).toFinset.filter
              (fun other => Better side other price.raw)).card < count
          ∧ size.raw = wrapI64 (openAt side orders price.raw)

-----------------------------------------------------------------------------------------
-- What a level shows
-----------------------------------------------------------------------------------------

theorem raw_foldl_add (values : List FP8) (start : FP8)
    : (values.foldl FP8.add start).raw = wrapI64 (start.raw + (values.map FP8.raw).sum) := by
  induction values generalizing start with
  | nil => simp [wrapI64_eq start.inRange]
  | cons value rest ih =>
      rw [List.foldl_cons, ih, List.map_cons, List.sum_cons, FP8.add, FP8.raw_wrap, wrapI64_add,
        Int.add_assoc]

/-- A level of unfilled orders shows what is open in it. -/
theorem totalSize_raw {level : PriceLevel} (unfilled : ∀ order ∈ level, order.Unfilled)
    : (OrderBook.totalSize level).raw = wrapI64 (level.map Order.openRaw).sum := by
  have opens : (level.map Order.remaining).map FP8.raw = level.map Order.openRaw := by
    rw [List.map_map]
    exact List.map_congr_left (fun order member => (unfilled order member).sane.remaining_open)
  rw [OrderBook.totalSize, raw_foldl_add, opens, FP8.raw_zero, zero_add]

section Side

variable {book : OrderBook} {side : Side}

/-- The orders of a side in the book are those of its queue. -/
theorem restingOrders_side (inv : BookInv book) (side : Side)
    : (book.restingOrders.filter (fun order => order.side = side)).Perm
        (queue side (book.levels side)) := by
  have own : (queue side (book.levels side)).filter (fun order => order.side = side)
      = queue side (book.levels side) :=
    List.filter_eq_self.mpr
      (fun order member => by simpa using ((inv.levels side).restsAt member).side)
  have other : (queue side.opposite (book.levels side.opposite)).filter
      (fun order => order.side = side) = [] := by
    refine List.filter_eq_nil_iff.mpr (fun order member same => ?_)
    have isOther := ((inv.levels side.opposite).restsAt member).side
    rw [of_decide_eq_true same] at isOther
    cases side <;> cases isOther
  have split := (restingOrders_perm book side).filter (fun order => order.side = side)
  rw [List.filter_append, own, other, List.append_nil] at split
  exact split

theorem mem_pricesOf (inv : BookInv book) {price : Int}
    : price ∈ pricesOf side book.restingOrders ↔ price ∈ (book.levels side).keys := by
  rw [(inv.levels side).mem_keys_iff, pricesOf,
    ((restingOrders_side inv side).map (fun order => order.price.raw)).mem_iff, List.mem_map]

/-- A level of a side holds what is open at its price. -/
theorem openAt_level (inv : BookInv book) {entry : Int × PriceLevel}
    (member : entry ∈ priority side (book.levels side))
    : openAt side book.restingOrders entry.1 = (entry.2.map Order.openRaw).sum := by
  have filed : Filed (priority side (book.levels side)) := fun other found =>
    Filed.of_resting (inv.levels side).resting other (mem_priority.mp found)
  have level : (queue side (book.levels side)).filter (fun order => order.price.raw = entry.1)
      = entry.2 := by
    have byPrice := flatMap_filter_price filed (fun price => price = entry.1)
    rw [flatMap_filter_key (priority_keys_nodup side _),
      (BTreeMap.lookup_eq_some_iff (priority_keys_nodup side _)).mpr member] at byPrice
    exact byPrice.symm
  have perm := (restingOrders_side inv side).filter (fun order => order.price.raw = entry.1)
  rw [level, List.filter_filter] at perm
  have both
      : (fun order : Order => decide (order.price.raw = entry.1) && decide (order.side = side))
        = fun order => decide (order.side = side ∧ order.price.raw = entry.1) := by
    funext order
    rw [Bool.and_comm, Bool.decide_and]
  rw [both] at perm
  exact (perm.map Order.openRaw).sum_eq

/-- What a level shows is what is open at its price, as an `i64`. -/
theorem totalSize_level (inv : BookInv book) {entry : Int × PriceLevel}
    (member : entry ∈ priority side (book.levels side))
    : (OrderBook.totalSize entry.2).raw
      = wrapI64 (openAt side book.restingOrders entry.1) := by
  have resting := (inv.levels side).resting entry (mem_priority.mp member)
  rw [openAt_level inv member,
    totalSize_raw (fun order present => (resting order present).unfilled)]

/-- Levels are in order from better to worse. -/
theorem priority_ordered (side : Side) (levels : Levels)
    : (priority side levels).Pairwise (fun left right => Better side left.1 right.1) := by
  cases side with
  | long => exact List.pairwise_reverse.mpr levels.sorted
  | short => exact levels.sorted

/-- The better levels are as many as the better prices. -/
theorem card_better (inv : BookInv book) (price : Int)
    : ((pricesOf side book.restingOrders).toFinset.filter
        (fun other => Better side other price)).card
      = ((priority side (book.levels side)).filter
          (fun entry => Better side entry.1 price)).length := by
  have nodup : (((priority side (book.levels side)).filter
      (fun entry => Better side entry.1 price)).map Prod.fst).Nodup :=
    (priority_keys_nodup side _).sublist (List.filter_sublist.map Prod.fst)
  have same : (pricesOf side book.restingOrders).toFinset.filter
      (fun other => Better side other price)
        = (((priority side (book.levels side)).filter
            (fun entry => Better side entry.1 price)).map Prod.fst).toFinset := by
    ext other
    simp only [Finset.mem_filter, List.mem_toFinset, mem_pricesOf inv, BTreeMap.keys,
      List.mem_map, List.mem_filter, mem_priority, decide_eq_true_eq]
    constructor
    · rintro ⟨⟨entry, member, rfl⟩, better⟩
      exact ⟨entry, ⟨member, better⟩, rfl⟩
    · rintro ⟨entry, ⟨member, better⟩, rfl⟩
      exact ⟨⟨entry, member, rfl⟩, better⟩
  rw [same, List.toFinset_card_of_nodup nodup, List.length_map]

/-- Prices with orders are `i64` values. -/
theorem price_inRange (inv : BookInv book) {entry : Int × PriceLevel}
    (member : entry ∈ (book.levels side).entries)
    : (FP8.ofRaw entry.1).raw = entry.1 := by
  obtain ⟨order, _, same⟩ :=
    (inv.levels side).mem_keys_iff.mp (List.mem_map_of_mem (f := Prod.fst) member)
  rw [← same, FP8.ofRaw_raw]

/-- What one side of a depth lists. -/
theorem depthOf_exact (inv : BookInv book) (side : Side) (count : Nat)
    : DepthOf side book.restingOrders count
        (OrderBook.depthOf side (book.levels side) count) := by
  have unwrap : ∀ entry ∈ (priority side (book.levels side)).take count,
      entry ∈ (book.levels side).entries := fun entry member =>
    mem_priority.mp (List.mem_of_mem_take member)
  refine ⟨?_, fun price size => ?_⟩
  · rw [OrderBook.depthOf, List.pairwise_map]
    refine ((priority_ordered side _).take).imp_of_mem (fun left right better => ?_)
    rw [price_inRange inv (unwrap _ left), price_inRange inv (unwrap _ right)]
    exact better
  · rw [card_better inv, mem_pricesOf inv, OrderBook.depthOf, List.mem_map]
    have asymm : ∀ left right : Int × PriceLevel,
        Better side left.1 right.1 → ¬ Better side right.1 left.1 := fun _ _ => Better.asymm
    constructor
    · rintro ⟨entry, member, same⟩
      obtain ⟨rfl, rfl⟩ := Prod.mk.inj same
      have isLevel := unwrap entry member
      obtain ⟨found, few⟩ := (StableSort.mem_take_iff asymm (priority_ordered side _)).mp member
      rw [price_inRange inv isLevel]
      exact ⟨List.mem_map_of_mem isLevel, few, totalSize_level inv found⟩
    · rintro ⟨isPrice, few, shown⟩
      obtain ⟨entry, isLevel, same⟩ := List.mem_map.mp isPrice
      have found : entry ∈ priority side (book.levels side) := mem_priority.mpr isLevel
      rw [← same] at few shown
      refine ⟨entry, (StableSort.mem_take_iff asymm (priority_ordered side _)).mpr ⟨found, few⟩, ?_⟩
      refine Prod.ext (FP8.ext ?_) (FP8.ext ?_)
      · rw [price_inRange inv isLevel]
        exact same
      · rw [shown]
        exact totalSize_level inv found

end Side

/-- The best price of a side, if it has any orders. -/
def BestOf (side : Side) (orders : List Order) (best : Option FP8) : Prop :=
  ∀ price,
    best = some price
    ↔ price.raw ∈ pricesOf side orders
      ∧ ∀ other ∈ pricesOf side orders, ¬ Better side other price.raw

section Best

variable {book : OrderBook}

/-- The first key of a side in order of priority is its best price. -/
theorem head_best (inv : BookInv book) (side : Side)
    : BestOf side book.restingOrders
        ((priority side (book.levels side)).head?.map (fun entry => FP8.ofRaw entry.1)) := by
  intro price
  have ordered := priority_ordered side (book.levels side)
  have keys : ∀ other, other ∈ pricesOf side book.restingOrders
      ↔ ∃ entry ∈ priority side (book.levels side), entry.1 = other := fun other => by
    rw [mem_pricesOf inv, BTreeMap.keys, List.mem_map]
    simp only [mem_priority]
  have whole : ∀ entry ∈ priority side (book.levels side), (FP8.ofRaw entry.1).raw = entry.1 :=
    fun entry member => price_inRange inv (mem_priority.mp member)
  simp only [keys]
  generalize priority side (book.levels side) = entries at ordered whole
  cases entries with
  | nil => simp
  | cons first rest =>
      have exact := whole first List.mem_cons_self
      obtain ⟨before, _⟩ := List.pairwise_cons.mp ordered
      rw [List.head?_cons, Option.map_some, Option.some_inj]
      constructor
      · rintro rfl
        refine ⟨⟨first, List.mem_cons_self, exact.symm⟩, ?_⟩
        rintro _ ⟨entry, member, rfl⟩
        rw [exact]
        rcases List.mem_cons.mp member with rfl | later
        · exact fun better => better.asymm better
        · exact (before entry later).asymm
      · rintro ⟨⟨entry, member, same⟩, none⟩
        rcases List.mem_cons.mp member with rfl | later
        · exact FP8.ext (exact.trans same)
        · exact absurd (same ▸ before entry later) (none _ ⟨first, List.mem_cons_self, rfl⟩)

theorem bestBid_best (inv : BookInv book) : BestOf .long book.restingOrders book.bestBid := by
  have head := head_best inv .long
  have same : book.bestBid
      = (priority .long book.bids).head?.map (fun entry => FP8.ofRaw entry.1) := by
    rw [OrderBook.bestBid, BTreeMap.keys, priority, List.head?_reverse, List.getLast?_map,
      Option.map_map]
    rfl
  rw [same]
  exact head

theorem bestAsk_best (inv : BookInv book) : BestOf .short book.restingOrders book.bestAsk := by
  have head := head_best inv .short
  have same : book.bestAsk
      = (priority .short book.asks).head?.map (fun entry => FP8.ofRaw entry.1) := by
    rw [OrderBook.bestAsk, BTreeMap.keys, priority, List.head?_map, Option.map_map]
    rfl
  rw [same]
  exact head

/-- Between two different prices, the half of their sum is one of the prices from the lower to the
higher one.
-/
theorem half_between {bid ask : Int} (apart : bid < ask)
    : bid ≤ (bid + ask).tdiv 2 ∧ (bid + ask).tdiv 2 ≤ ask := by
  have split := Int.mul_tdiv_add_tmod (bid + ask) 2
  rcases Int.le_total 0 (bid + ask) with nonneg | negative
  · have rest := Int.tmod_nonneg 2 nonneg
    have small := Int.tmod_lt_of_pos (bid + ask) (by decide : (0 : Int) < 2)
    omega
  · have rest := Int.tmod_nonneg 2 (Int.neg_nonneg_of_nonpos negative)
    have small := Int.tmod_lt_of_pos (-(bid + ask)) (by decide : (0 : Int) < 2)
    rw [Int.neg_tmod] at rest small
    omega

end Best

/-- What the market data show of a book that went through any operations: of each side the best
prices with all that is open at each, all bids below all asks, and the best of each side, with
between them a mid price as soon as both sides have orders and their sum is an `i64`.
-/
theorem depth_exact (market : String) (ops : List BookOp) (count : Nat)
    : let book := (OrderBook.new market).run ops
      DepthOf .long book.restingOrders count (book.depth count).1
      ∧ DepthOf .short book.restingOrders count (book.depth count).2
      ∧ (∀ bid ∈ (book.depth count).1, ∀ ask ∈ (book.depth count).2, bid.1.raw < ask.1.raw)
      ∧ BestOf .long book.restingOrders book.bestBid
      ∧ BestOf .short book.restingOrders book.bestAsk
      ∧ (book.midPrice.isSome ↔ book.bestBid.isSome ∧ book.bestAsk.isSome)
      ∧ ∀ mid bid ask,
          book.midPrice = some mid → book.bestBid = some bid → book.bestAsk = some ask
          → I64Range (bid.raw + ask.raw)
          → bid.raw ≤ mid.raw ∧ mid.raw ≤ ask.raw := by
  intro book
  have inv := (BookInv.new market).run ops
  have bids := depthOf_exact inv .long count
  have asks := depthOf_exact inv .short count
  have apart : ∀ bid ask, bid ∈ pricesOf .long book.restingOrders
      → ask ∈ pricesOf .short book.restingOrders → bid < ask := fun bid ask isBid isAsk =>
    inv.uncrossed _ ((mem_pricesOf inv).mp isBid) _ ((mem_pricesOf inv).mp isAsk)
  have bestBids := bestBid_best inv
  have bestAsks := bestAsk_best inv
  refine ⟨bids, asks, ?_, bestBids, bestAsks, ?_, ?_⟩
  · rintro ⟨bid, bidSize⟩ isBid ⟨ask, askSize⟩ isAsk
    exact apart _ _ ((bids.listed _ _).mp isBid).1 ((asks.listed _ _).mp isAsk).1
  · rw [OrderBook.midPrice]
    cases book.bestBid <;> cases book.bestAsk <;> simp
  · intro mid bid ask isMid isBid isAsk fits
    have lower := apart _ _ ((bestBids bid).mp isBid).1 ((bestAsks ask).mp isAsk).1
    have between := half_between lower
    rw [OrderBook.midPrice, isBid, isAsk] at isMid
    simp only [wrapI64_eq fits] at isMid
    have half : I64Range ((bid.raw + ask.raw).tdiv 2) :=
      ⟨bid.inRange.1.trans between.1, between.2.trans_lt ask.inRange.2⟩
    have value := congrArg FP8.raw (Option.some.inj isMid)
    rw [FP8.raw_ofRaw half] at value
    rw [← value]
    exact between

end PerpDex
