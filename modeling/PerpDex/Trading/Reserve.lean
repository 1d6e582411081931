import PerpDex.Lib.Run
import PerpDex.OrderBook.Failover
import PerpDex.Trading.Outcome

/-! Margin reserved at placement.
The margin an order reserves is monotone in what is left of it, so matching and cancelling
only lower what a user has reserved, and an order that rests reserves no more than the
check under the book lock asked for.
-/

namespace PerpDex

open OrderBook

/-- The margin of a quantity at a price: notional over leverage, rounded down twice. -/
def marginRaw (quantity price : Int) (leverage : UInt32) : Int :=
  quantity * price / fp8Scale / leverage.toNat

theorem marginRaw_nonneg {quantity price : Int} (leverage : UInt32) (some : 0 ≤ quantity)
    (paid : 0 ≤ price)
    : 0 ≤ marginRaw quantity price leverage :=
  Int.ediv_nonneg (Int.ediv_nonneg (mul_nonneg some paid) (by decide)) (Int.natCast_nonneg _)

/-- Less quantity needs no more margin. -/
theorem marginRaw_mono {quantity more price : Int} (leverage : UInt32) (less : quantity ≤ more)
    (paid : 0 ≤ price)
    : marginRaw quantity price leverage ≤ marginRaw more price leverage := by
  have notional : quantity * price / fp8Scale ≤ more * price / fp8Scale :=
    Int.ediv_le_ediv (by decide) (mul_le_mul_of_nonneg_right less paid)
  rcases Nat.eq_zero_or_pos leverage.toNat with zero | positive
  · simp [marginRaw, zero]
  · exact Int.ediv_le_ediv (by exact_mod_cast positive) notional

/-- The value FP8 arithmetic computes when the notional fits. -/
theorem margin_fp8 {size price : FP8} {leverage : UInt32} (some : 0 ≤ size.raw)
    (paid : 0 ≤ price.raw) (fits : I64Range (size.raw * price.raw / fp8Scale))
    : (FP8.ofRaw ((size.mul price).raw.tdiv leverage.toNat)).raw
      = marginRaw size.raw price.raw leverage := by
  have product : 0 ≤ size.raw * price.raw := mul_nonneg some paid
  have notional : 0 ≤ size.raw * price.raw / fp8Scale := Int.ediv_nonneg product (by decide)
  have mulEq : (size.mul price).raw = size.raw * price.raw / fp8Scale := by
    rw [FP8.mul, Int.tdiv_eq_ediv_of_nonneg product, FP8.raw_ofRaw fits]
  rw [mulEq, Int.tdiv_eq_ediv_of_nonneg notional]
  have bound : size.raw * price.raw / fp8Scale / (leverage.toNat : Int)
      ≤ size.raw * price.raw / fp8Scale := Int.ediv_le_self _ notional
  have nonneg := @marginRaw_nonneg size.raw price.raw leverage some paid
  exact FP8.raw_ofRaw ⟨le_trans (by norm_num) nonneg, bound.trans_lt fits.2⟩

/-- The margin a resting order reserves. -/
def Order.reserveRaw (order : Order) : Int :=
  marginRaw order.openRaw order.price.raw order.leverage

/-- The margin the orders of a user in a list reserve. -/
def reservedRaw (userId : String) (orders : List Order) : Int :=
  ((orders.filter (reservesMargin userId)).map Order.reserveRaw).sum

/-- An order whose margin is computed without overflow. -/
structure Order.Priced (order : Order) : Prop where
  unfilled : order.Unfilled
  paid : 0 ≤ order.price.raw
  fits : I64Range (order.openRaw * order.price.raw / fp8Scale)

theorem Order.Priced.reserve_nonneg {order : Order} (priced : order.Priced)
    : 0 ≤ order.reserveRaw :=
  marginRaw_nonneg _ priced.unfilled.open_pos.le priced.paid

theorem Order.Priced.margin {order : Order} (priced : order.Priced)
    : (orderMargin order).raw = order.reserveRaw := by
  have remaining := priced.unfilled.sane.remaining_open
  rw [orderMargin, margin_fp8, remaining]
  · rfl
  · rw [remaining]
    exact priced.unfilled.open_pos.le
  · exact priced.paid
  · rw [remaining]
    exact priced.fits

/-- A reduced order is still priced and reserves no more. -/
theorem Order.ReducedTo.priced {before after : Order} (reduced : before.ReducedTo after)
    (priced : before.Priced)
    : after.Priced ∧ after.reserveRaw ≤ before.reserveRaw := by
  have priceEq : after.price = before.price := reduced.price_eq
  have leverageEq : after.leverage = before.leverage := by rw [reduced.terms]
  have sizeEq : after.size = before.size := by rw [reduced.terms]
  have left := reduced.unfilled.open_pos
  have less : after.openRaw ≤ before.openRaw := by
    have filled := reduced.filled
    simp only [Order.openRaw, sizeEq]
    omega
  have product : after.openRaw * before.price.raw ≤ before.openRaw * before.price.raw :=
    mul_le_mul_of_nonneg_right less priced.paid
  have smaller := Int.ediv_le_ediv (show 0 < fp8Scale by decide) product
  have nonneg : 0 ≤ after.openRaw * before.price.raw / fp8Scale :=
    Int.ediv_nonneg (mul_nonneg left.le priced.paid) (by decide)
  refine ⟨⟨reduced.unfilled, ?_, ?_⟩, ?_⟩
  · rw [priceEq]
    exact priced.paid
  · rw [priceEq]
    exact ⟨le_trans (by norm_num) nonneg, smaller.trans_lt priced.fits.2⟩
  · rw [Order.reserveRaw, Order.reserveRaw, priceEq, leverageEq]
    exact marginRaw_mono _ less priced.paid

/-- A reduced order reserves margin exactly if it did before. -/
theorem Order.ReducedTo.reservesMargin {before after : Order} (reduced : before.ReducedTo after)
    (userId : String)
    : PerpDex.OrderBook.reservesMargin userId after
      = PerpDex.OrderBook.reservesMargin userId before := by
  rw [reduced.terms]
  rfl

/-- The orders of a user that reserve margin are priced. -/
def AllPriced (userId : String) (orders : List Order) : Prop :=
  ∀ order ∈ orders, reservesMargin userId order = true → order.Priced

theorem reservedRaw_cons (userId : String) (order : Order) (rest : List Order)
    : reservedRaw userId (order :: rest)
      = (if reservesMargin userId order then order.reserveRaw else 0)
        + reservedRaw userId rest := by
  simp only [reservedRaw, List.filter_cons]
  split_ifs
  · simp
  · simp

theorem reservedRaw_perm {userId : String} {left right : List Order} (perm : left.Perm right)
    : reservedRaw userId left = reservedRaw userId right :=
  ((perm.filter _).map _).sum_eq

theorem reservedRaw_nonneg {userId : String} {orders : List Order}
    (priced : AllPriced userId orders)
    : 0 ≤ reservedRaw userId orders := by
  refine List.sum_nonneg (fun value member => ?_)
  obtain ⟨order, listed, rfl⟩ := List.mem_map.mp member
  obtain ⟨present, reserves⟩ := List.mem_filter.mp listed
  exact (priced order present reserves).reserve_nonneg

/-- Thinning keeps the orders priced and never raises what is reserved, by induction over
the two lists.
-/
theorem Thins.reserved {userId : String} {before after : List Order}
    (thins : Thins before after) (priced : AllPriced userId before)
    : AllPriced userId after ∧ reservedRaw userId after ≤ reservedRaw userId before := by
  induction thins with
  | nil => exact ⟨fun _ member => absurd member List.not_mem_nil, reservedRaw_nonneg priced⟩
  | @cons new old newRest oldRest reduced rest ih =>
      obtain ⟨restPriced, restLess⟩ :=
        ih (fun order member => priced order (List.mem_cons_of_mem _ member))
      have sameReserves := reduced.reservesMargin userId
      refine ⟨fun order member reserves => ?_, ?_⟩
      · rcases List.mem_cons.mp member with rfl | later
        · exact (reduced.priced (priced old List.mem_cons_self (sameReserves ▸ reserves))).1
        · exact restPriced order later reserves
      · rw [reservedRaw_cons, reservedRaw_cons, sameReserves]
        split_ifs with reserves
        · have less := (reduced.priced (priced old List.mem_cons_self reserves)).2
          omega
        · omega
  | @cons_right old newRest oldRest rest ih =>
      obtain ⟨restPriced, restLess⟩ :=
        ih (fun order member => priced order (List.mem_cons_of_mem _ member))
      refine ⟨restPriced, ?_⟩
      rw [reservedRaw_cons]
      split_ifs with reserves
      · have nonneg := (priced old List.mem_cons_self reserves).reserve_nonneg
        omega
      · omega

/-- The running total of the source is the exact sum while the sum fits. -/
theorem foldl_margin {orders : List Order} (priced : ∀ order ∈ orders, order.Priced)
    {start : FP8} (nonneg : 0 ≤ start.raw)
    (fits : start.raw + (orders.map Order.reserveRaw).sum < 2 ^ 63)
    : (orders.foldl (fun reserved order => reserved.add (orderMargin order)) start).raw
      = start.raw + (orders.map Order.reserveRaw).sum := by
  induction orders generalizing start with
  | nil => simp
  | cons order rest ih =>
      have head := priced order List.mem_cons_self
      have restPriced : ∀ other ∈ rest, other.Priced :=
        fun other member => priced other (List.mem_cons_of_mem _ member)
      have restNonneg : 0 ≤ (rest.map Order.reserveRaw).sum := by
        refine List.sum_nonneg (fun value member => ?_)
        obtain ⟨other, listed, rfl⟩ := List.mem_map.mp member
        exact (restPriced other listed).reserve_nonneg
      have headNonneg := head.reserve_nonneg
      rw [List.map_cons, List.sum_cons] at fits ⊢
      have added : (start.add (orderMargin order)).raw = start.raw + order.reserveRaw := by
        rw [FP8.add, head.margin, FP8.raw_ofRaw]
        exact ⟨by omega, by omega⟩
      rw [List.foldl_cons, ih restPriced (by omega) (by omega), added]
      ring

-----------------------------------------------------------------------------------------
-- The invariant
-----------------------------------------------------------------------------------------

/-- What a user has reserved is computed without overflow and stays within a bound. -/
structure ReserveInv (userId : String) (available : FP8) (book : OrderBook) : Prop where
  inv : BookInv book
  priced : AllPriced userId book.restingOrders
  bounded : reservedRaw userId book.restingOrders ≤ available.raw

/-- The reserved margin the code computes is the exact sum. -/
theorem ReserveInv.margin {userId : String} {available : FP8} {book : OrderBook}
    (inv : ReserveInv userId available book)
    : (book.userReservedMargin userId).raw = reservedRaw userId book.restingOrders := by
  have within := inv.bounded.trans_lt available.inRange.2
  have priced : ∀ order ∈ book.restingOrders.filter (reservesMargin userId), order.Priced := by
    intro order member
    obtain ⟨present, reserves⟩ := List.mem_filter.mp member
    exact inv.priced order present reserves
  have total := @foldl_margin _ priced FP8.zero le_rfl (by simpa [reservedRaw] using within)
  rw [FP8.raw_zero, zero_add] at total
  exact total

/-- Thinning the book never raises what is reserved. -/
theorem BookThins.reserved {userId : String} {book next : OrderBook}
    (thins : BookThins book next) (priced : AllPriced userId book.restingOrders)
    : AllPriced userId next.restingOrders
      ∧ reservedRaw userId next.restingOrders ≤ reservedRaw userId book.restingOrders := by
  have before := restingOrders_perm book .long
  have after := restingOrders_perm next .long
  have whole := (thins .long).append (thins .short)
  obtain ⟨nextPriced, less⟩ := whole.reserved
    (fun order member => priced order (before.mem_iff.mpr member))
  refine ⟨fun order member => nextPriced order (after.mem_iff.mp member), ?_⟩
  rw [reservedRaw_perm before, reservedRaw_perm after]
  exact less

theorem ReserveInv.of_thins {userId : String} {available : FP8} {book next : OrderBook}
    (reserve : ReserveInv userId available book) (nextInv : BookInv next)
    (thins : BookThins book next)
    : ReserveInv userId available next := by
  obtain ⟨priced, less⟩ := thins.reserved reserve.priced
  exact ⟨nextInv, priced, less.trans reserve.bounded⟩

theorem ReserveInv.congr {userId : String} {available : FP8} {book other : OrderBook}
    (reserve : ReserveInv userId available book) (otherInv : BookInv other)
    (same : other.restingOrders = book.restingOrders)
    : ReserveInv userId available other :=
  ⟨otherInv, same ▸ reserve.priced, same ▸ reserve.bounded⟩

/-- The remainder of a matched order is no larger than the order. -/
theorem matchOrder_open_le {book : OrderBook} (inv : BookInv book) {order : Order}
    (sane : order.Sane)
    : (book.matchOrder order).1.taker.openRaw ≤ order.openRaw := by
  have left := matchOrder_open inv sane
  have nonneg : 0 ≤ order.openRaw := sub_nonneg.mpr sane.2
  have crossed := depth_nonneg (opposing_unfilled inv order)
  omega

/-- Matching an order and resting its remainder keeps the bound if the margin of the whole
order would stay within it.
-/
theorem ReserveInv.restRemainder {userId : String} {available : FP8} {book : OrderBook}
    (reserve : ReserveInv userId available book) {order : Order} (sane : order.Sane)
    (settled : BookInv (restRemainder (book.matchOrder order).1 (book.matchOrder order).2))
    (covered
      : rests (book.matchOrder order).1.taker → reservesMargin userId order
        → 0 ≤ order.price.raw ∧ I64Range (order.openRaw * order.price.raw / fp8Scale)
          ∧ reservedRaw userId book.restingOrders + order.reserveRaw ≤ available.raw)
    : ReserveInv userId available
        (PerpDex.restRemainder (book.matchOrder order).1 (book.matchOrder order).2) := by
  have effect := matchOrder_effect (reserve.inv.levels order.side.opposite) sane
  have matched := reserve.of_thins (reserve.inv.matchOrder sane) (effect.thins reserve.inv)
  obtain ⟨takerSane, terms⟩ := effect.taker reserve.inv sane
  simp only [PerpDex.restRemainder] at settled ⊢
  split_ifs at settled ⊢ with resting
  · obtain ⟨_, less⟩ := (effect.thins reserve.inv).reserved reserve.priced
    have perm := addToBook_perm (book.matchOrder order).2 (book.matchOrder order).1.taker
    have remainder := matchOrder_open_le reserve.inv sane
    have restsAt := rests_restsAt takerSane resting
    have priceEq : (book.matchOrder order).1.taker.price = order.price := by rw [terms]
    have leverageEq : (book.matchOrder order).1.taker.leverage = order.leverage := by rw [terms]
    have sameReserves : reservesMargin userId (book.matchOrder order).1.taker
        = reservesMargin userId order := by
      rw [terms]
      rfl
    have left := restsAt.unfilled.open_pos
    have taker : reservesMargin userId order = true
        → (book.matchOrder order).1.taker.Priced
          ∧ (book.matchOrder order).1.taker.reserveRaw ≤ order.reserveRaw := by
      intro reserves
      obtain ⟨paid, fits, _⟩ := covered resting reserves
      have smaller := Int.ediv_le_ediv (show 0 < fp8Scale by decide)
        (mul_le_mul_of_nonneg_right remainder paid)
      have nonneg : 0 ≤ (book.matchOrder order).1.taker.openRaw * order.price.raw / fp8Scale :=
        Int.ediv_nonneg (mul_nonneg left.le paid) (by decide)
      refine ⟨⟨restsAt.unfilled, ?_, ?_⟩, ?_⟩
      · rw [priceEq]
        exact paid
      · rw [priceEq]
        exact ⟨le_trans (by norm_num) nonneg, smaller.trans_lt fits.2⟩
      · rw [Order.reserveRaw, Order.reserveRaw, priceEq, leverageEq]
        exact marginRaw_mono _ remainder paid
    refine ⟨settled, fun other member reserves => ?_, ?_⟩
    · rcases List.mem_cons.mp (perm.mem_iff.mp member) with rfl | old
      · exact (taker (sameReserves ▸ reserves)).1
      · exact matched.priced other old reserves
    · rw [reservedRaw_perm perm, reservedRaw_cons, sameReserves]
      split_ifs with reserves
      · have whole := (covered resting reserves).2.2
        have part := (taker reserves).2
        omega
      · have bounded := matched.bounded
        omega
  · exact matched

/-- A submission keeps the bound if, were its order to rest and reserve margin, the margin
of its whole size would stay within it.
Witness: matching thins the book, and the remainder is no larger than the order.
-/
theorem ReserveInv.submitOrder {userId : String} {available : FP8} {book : OrderBook}
    (reserve : ReserveInv userId available book) (args : SubmitArgs) (clock : StpClock)
    (covered
      : args.userId = userId → args.reduceOnly = false → 0 < args.size.raw
        → 0 < args.price.raw
        → I64Range (args.size.raw * args.price.raw / fp8Scale)
          ∧ reservedRaw userId book.restingOrders
              + marginRaw args.size.raw args.price.raw args.leverage
            ≤ available.raw)
    : ReserveInv userId available (book.submitOrder args clock).2 := by
  have keeps := reserve.inv.submitOrder args clock
  have outcome := submitOrder_outcome book args clock
  generalize book.submitOrder args clock = result at outcome keeps ⊢
  cases outcome with
  | refused reason stpRate => exact reserve.congr keeps rfl
  | killed stpRate _ _ _ => exact reserve.congr keeps rfl
  | executed stpRate positive priced _ _ =>
      have counted : ReserveInv userId available (book.countAttempt stpRate) :=
        reserve.congr (reserve.inv.congr rfl rfl (Nat.le_succ _)) rfl
      have sane := @newOrder_sane book args positive
      have executed := executeOrder_book (book.countAttempt stpRate) (book.newOrder args)
        clock.record
      have settled : BookInv
          (PerpDex.restRemainder
            ((book.countAttempt stpRate).matchOrder (book.newOrder args)).1
            ((book.countAttempt stpRate).matchOrder (book.newOrder args)).2) := by
        refine keeps.congr ?_ ?_ (le_of_eq ?_)
        · exact (congrArg OrderBook.bids executed).symm
        · exact (congrArg OrderBook.asks executed).symm
        · exact (congrArg OrderBook.nextOrderId executed).trans rfl
      refine ReserveInv.congr (counted.restRemainder sane settled ?_) keeps ?_
      · intro resting reserves
        have effect := matchOrder_effect
          (counted.inv.levels (book.newOrder args).side.opposite) sane
        obtain ⟨takerSane, terms⟩ := effect.taker counted.inv sane
        have limit : args.orderType = .limit := by
          have isLimit := (rests_restsAt takerSane resting).limit
          rw [terms] at isLimit
          exact isLimit
        simp only [reservesMargin, Bool.and_eq_true, decide_eq_true_eq,
          Bool.not_eq_true'] at reserves
        have paid := priced limit
        obtain ⟨fits, within⟩ := covered reserves.1.1 reserves.1.2 positive paid
        have whole : (book.newOrder args).openRaw = args.size.raw := sub_zero _
        refine ⟨paid.le, ?_, ?_⟩
        · rw [whole]
          exact fits
        · rw [Order.reserveRaw, whole]
          exact within
      · exact (congrArg OrderBook.restingOrders executed).trans rfl

/-- The check under the lock leaves room for the margin of the whole order. -/
theorem ReserveInv.covers {userId : String} {available : FP8} {book : OrderBook}
    (reserve : ReserveInv userId available book) (nonneg : 0 ≤ available.raw)
    {args : SubmitArgs} (owner : args.userId = userId) (positive : 0 < args.size.raw)
    (paid : 0 < args.price.raw) (fits : I64Range (args.size.raw * args.price.raw / fp8Scale))
    (covered : coversMargin available args book = true)
    : reservedRaw userId book.restingOrders
        + marginRaw args.size.raw args.price.raw args.leverage
      ≤ available.raw := by
  simp only [coversMargin, Bool.and_eq_true, decide_eq_true_eq, owner] at covered
  have required : (requiredMargin args).raw
      = marginRaw args.size.raw args.price.raw args.leverage := by
    rw [requiredMargin, if_pos paid]
    exact margin_fp8 positive.le paid.le fits
  have reservedNonneg := reservedRaw_nonneg reserve.priced
  have bounded := reserve.bounded
  have top := available.inRange.2
  have free : (available.sub (book.userReservedMargin userId)).raw
      = available.raw - reservedRaw userId book.restingOrders := by
    rw [FP8.sub, reserve.margin, FP8.raw_ofRaw]
    exact ⟨by omega, by omega⟩
  have room := covered.2
  rw [required, free] at room
  omega

/-- The section under the lock keeps the bound for a user whose available margin it is
given, and for a user it is not about.
-/
theorem ReserveInv.lockedSubmit {userId : String} {available : FP8} {book : OrderBook}
    (reserve : ReserveInv userId available book) (nonneg : 0 ≤ available.raw)
    {reported : Option FP8} {args : SubmitArgs} (attestedMs : Nat) (clock : StpClock)
    (fits
      : args.userId = userId → 0 < args.size.raw → 0 < args.price.raw
        → I64Range (args.size.raw * args.price.raw / fp8Scale))
    (constant
      : args.userId = userId → args.reduceOnly = false → reported = some available)
    : ReserveInv userId available
        (PerpDex.lockedSubmit reported attestedMs args clock book).2 := by
  have clocked : ReserveInv userId available (book.setAttestedMs attestedMs) :=
    reserve.congr (reserve.inv.congr rfl rfl le_rfl) rfl
  cases reported with
  | none =>
      refine clocked.submitOrder args clock (fun owner reduces => ?_)
      exact absurd (constant owner reduces) (by simp)
  | some reported =>
      simp only [PerpDex.lockedSubmit]
      split_ifs with zero short
      · exact clocked
      · exact clocked
      · refine clocked.submitOrder args clock (fun owner reduces positive paid => ?_)
        have same : reported = available := Option.some.inj (constant owner reduces)
        have covered : coversMargin available args (book.setAttestedMs attestedMs) = true := by
          rw [← same]
          simpa [coversMargin, zero] using not_lt.mp short
        exact ⟨fits owner positive paid,
          clocked.covers nonneg owner positive paid (fits owner positive paid) covered⟩

section Engine

variable {σ : Type} (perp : PerpClient σ) (crypto : Crypto)

/-- The book after a submission is the old one, or what the section under the lock made of
it from what the enclave reported.
-/
theorem submitOrderInner_book (request : OrderRequest) (clock : StpClock)
    (engine : TradingEngine) (enclave : σ)
    : (submitOrderInner perp crypto request clock engine enclave).engine.book = engine.book
      ∨ ∃ available attestedMs,
          (readEnclave perp request enclave).1 = .ok (available, attestedMs)
          ∧ (submitOrderInner perp crypto request clock engine enclave).engine.book
            = (lockedSubmit available attestedMs request.args clock engine.book).2 := by
  simp only [submitOrderInner]
  cases admitted : (readEnclave perp request enclave).1 with
  | error reason => exact Or.inl rfl
  | ok read =>
      refine Or.inr ⟨read.1, read.2, rfl, ?_⟩
      cases outcome : (lockedSubmit read.1 read.2 request.args clock engine.book).1 with
      | error reason => simp only [outcome]
      | ok submission =>
          simp only [outcome]
          exact (settleAndPublish_report perp crypto request read.2 _ _ submission).1

/-- An opening order is checked against the margin the enclave reported for its owner. -/
theorem readEnclave_available {request : OrderRequest} {enclave : σ} {available : Option FP8}
    {attestedMs : Nat}
    (read : (readEnclave perp request enclave).1 = .ok (available, attestedMs))
    (opening : request.closePositionId = none)
    : ∃ reported,
        readAvailable (perp.getBalance request.args.userId enclave).1 = .ok reported
        ∧ available = some reported := by
  simp only [readEnclave, fetchAvailable, opening] at read
  cases gate : checkOwner request with
  | error reason => simp [gate] at read
  | ok _ =>
      cases balance : readAvailable (perp.getBalance request.args.userId enclave).1 with
      | error reason => simp [gate, balance, Except.map] at read
      | ok reported =>
          refine ⟨reported, rfl, ?_⟩
          simp only [gate, balance, Except.map] at read
          split at read
          · simp at read
          · exact (Prod.mk.inj (Except.ok.inj read)).1.symm

/-- The operations of the engine that change the book. -/
inductive EngineOp where
  | submitOrder (authorization : OrderAuthorization) (args : SubmitArgs) (clock : StpClock)
  | submitCloseOrder (authorization : OrderAuthorization) (userId : String) (closeSide : Side)
    (size : FP8) (leverage closePositionId : UInt32) (clock : StpClock)
  | cancelOrder (orderId : Nat)
  | cancelAll (userId : String)

/-- The engine and the enclave it settles in. -/
structure EngineState (σ : Type) where
  engine : TradingEngine
  enclave : σ

def EngineState.apply (state : EngineState σ) : EngineOp → EngineState σ
  | .submitOrder authorization args clock =>
      let submitted :=
        TradingEngine.submitOrder perp crypto authorization args clock state.engine state.enclave
      ⟨submitted.engine, submitted.enclave⟩
  | .submitCloseOrder authorization userId closeSide size leverage closePositionId clock =>
      let submitted :=
        TradingEngine.submitCloseOrder perp crypto authorization userId closeSide size leverage
          closePositionId clock state.engine state.enclave
      ⟨submitted.engine, submitted.enclave⟩
  | .cancelOrder orderId =>
      { state with engine.book := (state.engine.book.cancelOrder orderId).2 }
  | .cancelAll userId => { state with engine.book := (state.engine.book.cancelAll userId).2 }

def EngineState.run (state : EngineState σ) (ops : List EngineOp) : EngineState σ :=
  ops.foldl (EngineState.apply perp crypto) state

/-- The premise on an operation of the run: when the user submits an order, the enclave
reports the given available margin, if it reports one, and the notional does not overflow.
-/
def ReportsAvailable (userId : String) (available : FP8) (state : EngineState σ)
    : EngineOp → Prop
  | .submitOrder _ args _ =>
      args.userId = userId
      → (∀ reported,
          readAvailable (perp.getBalance userId state.enclave).1 = .ok reported
          → reported = available)
        ∧ (0 < args.size.raw → 0 < args.price.raw
          → I64Range (args.size.raw * args.price.raw / fp8Scale))
  | _ => True

theorem ReserveInv.submitOrderInner {userId : String} {available : FP8}
    {engine : TradingEngine} (reserve : ReserveInv userId available engine.book)
    (nonneg : 0 ≤ available.raw) (request : OrderRequest) (clock : StpClock) (enclave : σ)
    (fits
      : request.args.userId = userId → 0 < request.args.size.raw → 0 < request.args.price.raw
        → I64Range (request.args.size.raw * request.args.price.raw / fp8Scale))
    (constant
      : request.args.userId = userId → request.args.reduceOnly = false
        → request.closePositionId = none
          ∧ ∀ reported,
              readAvailable (perp.getBalance userId enclave).1 = .ok reported
              → reported = available)
    : ReserveInv userId available
        (PerpDex.submitOrderInner perp crypto request clock engine enclave).engine.book := by
  rcases submitOrderInner_book perp crypto request clock engine enclave with
    same | ⟨reported, attestedMs, read, bookEq⟩
  · rw [same]
    exact reserve
  · rw [bookEq]
    refine reserve.lockedSubmit nonneg attestedMs clock fits (fun owner reduces => ?_)
    obtain ⟨opening, only⟩ := constant owner reduces
    obtain ⟨value, balance, isReported⟩ := readEnclave_available perp read opening
    rw [owner] at balance
    rw [isReported, only value balance]

/-- One operation keeps the bound, by cases on the operation. -/
theorem ReserveInv.apply {userId : String} {available : FP8} {state : EngineState σ}
    (reserve : ReserveInv userId available state.engine.book) (nonneg : 0 ≤ available.raw)
    (op : EngineOp) (reports : ReportsAvailable perp userId available state op)
    : ReserveInv userId available (state.apply perp crypto op).engine.book := by
  cases op with
  | submitOrder authorization args clock =>
      refine reserve.submitOrderInner perp crypto nonneg ⟨authorization, args, none⟩ clock
        state.enclave ?_ ?_
      · exact fun owner => (reports owner).2
      · exact fun owner _ => ⟨rfl, (reports owner).1⟩
  | submitCloseOrder authorization owner closeSide size leverage closePositionId clock =>
      refine reserve.submitOrderInner perp crypto nonneg
        ⟨authorization, closeArgs owner closeSide size leverage, some closePositionId⟩ clock
        state.enclave ?_ ?_
      · exact fun _ _ paid => absurd paid (lt_irrefl _)
      · exact fun _ reduces => absurd reduces (by simp [closeArgs])
  | cancelOrder orderId =>
      exact reserve.of_thins (reserve.inv.cancelOrder orderId)
        (cancelOrder_thins reserve.inv orderId).2
  | cancelAll owner =>
      exact reserve.of_thins (reserve.inv.cancelAll owner) (cancelAll_thins reserve.inv owner).2

/-- Reserve at placement: along every run of submissions, closes and cancels in which the
enclave reports the same available margin for a user, the margin reserved by the user's
resting orders never exceeds it.
-/
theorem reserved_margin_bounded (market peerId : String) (publishes : Bool) (enclave : σ)
    (userId : String) (available : FP8) (nonneg : 0 ≤ available.raw) (ops : List EngineOp)
    (reports
      : Along (EngineState.apply perp crypto) (ReportsAvailable perp userId available)
          ⟨TradingEngine.new market peerId publishes, enclave⟩ ops)
    : ((EngineState.run perp crypto ⟨TradingEngine.new market peerId publishes, enclave⟩
          ops).engine.book.userReservedMargin userId).raw
      ≤ available.raw := by
  have initial : ReserveInv userId available (TradingEngine.new market peerId publishes).book :=
    ⟨BookInv.new market, fun _ member => absurd member List.not_mem_nil, nonneg⟩
  have reserve : ReserveInv userId available
      (EngineState.run perp crypto ⟨TradingEngine.new market peerId publishes, enclave⟩
        ops).engine.book :=
    @Along.invariant _ _ _ _ (fun state => ReserveInv userId available state.engine.book)
      (fun _ op reserve reports => reserve.apply perp crypto nonneg op reports) _ _ reports
      initial
  rw [reserve.margin]
  exact reserve.bounded

end Engine

/-- Two units for sale by one account that can cover one of them, and a buyer. -/
def overcommittingOps : List EngineOp :=
  [.submitOrder (.clientSigned sellOneBinding) (unitOrder makerAddress .short) ⟨0, 0⟩,
    .submitOrder (.clientSigned sellOneBinding) (unitOrder makerAddress .short) ⟨0, 0⟩,
    .submitOrder (.clientSigned buyOneBinding) (unitOrder takerAddress .long) ⟨0, 0⟩]

/-- The second unit is refused and the first one sold: nothing stays reserved. -/
theorem reserved_margin_bounded_overcommitting
    : 0 ≤ FP8.one.raw
      ∧ Along (EngineState.apply (grantingPerp "1.0" []) sampleCrypto)
          (ReportsAvailable (grantingPerp "1.0" []) makerAddress FP8.one)
          ⟨TradingEngine.new "XRP-USD-PERP" "" false, ()⟩ overcommittingOps
      ∧ ((EngineState.run (grantingPerp "1.0" []) sampleCrypto
            ⟨TradingEngine.new "XRP-USD-PERP" "" false, ()⟩
            overcommittingOps).engine.book.userReservedMargin makerAddress).raw
        ≤ FP8.one.raw := by
  have nonneg : 0 ≤ FP8.one.raw := by decide
  have balance : readAvailable ((grantingPerp "1.0" []).getBalance makerAddress ()).1
      = .ok FP8.one := by decide +kernel
  have constant : ∀ reported,
      readAvailable ((grantingPerp "1.0" []).getBalance makerAddress ()).1 = .ok reported
      → reported = FP8.one :=
    fun reported read => (Except.ok.inj (balance.symm.trans read)).symm
  have reports : Along (EngineState.apply (grantingPerp "1.0" []) sampleCrypto)
      (ReportsAvailable (grantingPerp "1.0" []) makerAddress FP8.one)
      ⟨TradingEngine.new "XRP-USD-PERP" "" false, ()⟩ overcommittingOps := by
    refine ⟨?_, ?_, ?_, trivial⟩
    · exact fun _ => ⟨constant, fun _ _ => by decide⟩
    · exact fun _ => ⟨constant, fun _ _ => by decide⟩
    · exact fun _ => ⟨constant, fun _ _ => by decide⟩
  exact ⟨nonneg, reports,
    reserved_margin_bounded (grantingPerp "1.0" []) sampleCrypto "XRP-USD-PERP" "" false ()
      makerAddress FP8.one nonneg overcommittingOps reports⟩

end PerpDex
