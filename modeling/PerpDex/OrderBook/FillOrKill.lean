import PerpDex.OrderBook.Quantities

/-! The fill-or-kill pre-check against what matching does.
The pre-check skips the user's own orders while matching burns the order against them, and it
walks the bids from the lowest price while matching starts at the highest. Both times the exact
condition under which the two agree is stated on the book before the order.
-/

namespace PerpDex

open OrderBook

-----------------------------------------------------------------------------------------
-- All or nothing
-----------------------------------------------------------------------------------------

/-- The makers of a queue ahead of the first one of a user. -/
def aheadOf (userId : String) (makers : List Order) : List Order :=
  makers.takeWhile (fun maker => maker.userId ≠ userId)

/-- A demand the queue can meet is met by other users alone exactly if the makers ahead of
the user's first own one can meet it.
-/
theorem foreign_whole_iff {userId : String} {demand : Int} {makers : List Order}
    (unfilled : ∀ maker ∈ makers, maker.Unfilled) (nonneg : 0 ≤ demand)
    (enough : demand ≤ depth makers)
    : total (foreignShares userId (allot demand makers)) = demand
      ↔ demand ≤ depth (aheadOf userId makers) := by
  induction makers generalizing demand with
  | nil =>
      simp only [depth, aheadOf, List.takeWhile_nil, List.map_nil, List.sum_nil, allot,
        foreignShares, List.filter_nil, total] at enough ⊢
      omega
  | cons maker rest ih =>
      have others : ∀ other ∈ rest, other.Unfilled := fun other found =>
        unfilled other (List.mem_cons_of_mem _ found)
      have room := (unfilled maker List.mem_cons_self).open_pos
      have tailDepth := depth_nonneg others
      have depthEq : depth (maker :: rest) = maker.openRaw + depth rest := by simp [depth]
      rcases nonneg.eq_or_lt with rfl | positive
      · have ahead : 0 ≤ depth (aheadOf userId (maker :: rest)) :=
          depth_nonneg (fun other found => unfilled other (List.takeWhile_subset _ found))
        simp [allot, foreignShares, total, ahead]
      · have left : 0 ≤ demand - min demand maker.openRaw := by omega
        have later := ih others left (by omega)
        have met := total_allot others left
        have split := total_split userId (allot (demand - min demand maker.openRaw) rest)
        simp only [allot, if_neg (not_le.mpr positive)]
        rw [foreignShares_cons, total_append]
        by_cases own : maker.userId = userId
        · -- the share that falls to the own maker is missing
          have ownNonneg : 0 ≤ total
              (ownShares userId (allot (demand - min demand maker.openRaw) rest)) := by
            refine List.sum_nonneg (fun amount listed => ?_)
            obtain ⟨share, found, rfl⟩ := List.mem_map.mp listed
            exact (allot_bounds others (List.mem_of_mem_filter found)).1.le
          have ahead : depth (aheadOf userId (maker :: rest)) = 0 := by
            simp [aheadOf, own, depth]
          have head : total (foreignShares userId [(maker, min demand maker.openRaw)]) = 0 := by
            simp [foreignShares, own, total]
          rw [ahead, head]
          omega
        · have ahead : aheadOf userId (maker :: rest) = maker :: aheadOf userId rest := by
            simp [aheadOf, own]
          have aheadDepth : depth (maker :: aheadOf userId rest)
              = maker.openRaw + depth (aheadOf userId rest) := by simp [depth]
          have aheadNonneg : 0 ≤ depth (aheadOf userId rest) :=
            depth_nonneg (fun other found => others other (List.takeWhile_subset _ found))
          have head : total (foreignShares userId [(maker, min demand maker.openRaw)])
              = min demand maker.openRaw := by simp [foreignShares, own, total]
          rw [ahead, aheadDepth, head]
          omega

/-- What fill-or-kill promises: a cancelled order with no trades on an untouched book, or
trades for the whole size.
-/
def AllOrNothing (book : OrderBook) (args : SubmitArgs) (submission : Submission)
    (next : OrderBook) : Prop :=
  (submission.order.status = .cancelled ∧ submission.trades = []
    ∧ next.restingOrders = book.restingOrders)
  ∨ tradedSize submission.trades = args.size.raw

/-- An order that took a share has changed the resting orders. -/
theorem SubmitEffect.touched {book next : OrderBook} {args : SubmitArgs}
    {submission : Submission} {shares : List Share} (inv : BookInv book)
    (effect : SubmitEffect book args submission next shares) {share : Share}
    (member : share ∈ shares)
    : next.restingOrders ≠ book.restingOrders := by
  intro same
  have unfilled := effect.share_unfilled inv member
  obtain ⟨positive, within⟩ := effect.share_bounds inv member
  have before := (getOrder_eq_some_iff inv).mpr ⟨effect.share_resting member, rfl⟩
  have after := effect.lookup_share inv member
  have left := shareLeft_remaining unfilled positive within args.userId
  rw [← after, OrderBook.getOrder, same] at left
  rw [OrderBook.getOrder] at before
  rw [before, Option.elim_some, unfilled.sane.remaining_open] at left
  omega

/-- An accepted fill-or-kill order is all or nothing exactly if the pre-check kills it, or the
other users' orders queued ahead of the user's first own crossing order hold its size.
-/
theorem fill_or_kill_atomic_iff (market : String) (ops : List BookOp) {args : SubmitArgs}
    {clock : StpClock} {submission : Submission} {next : OrderBook}
    (fillOrKill : args.timeInForce = .fok)
    (accepted
      : ((OrderBook.new market).run ops).submitOrder args clock = (.ok submission, next))
    : AllOrNothing ((OrderBook.new market).run ops) args submission next
      ↔ ((OrderBook.new market).run ops).availableLiquidity
            (((OrderBook.new market).run ops).newOrder args)
          < args.size.raw
        ∨ args.size.raw
          ≤ depth
              (aheadOf args.userId
                (opposing ((OrderBook.new market).run ops)
                  (((OrderBook.new market).run ops).newOrder args))) := by
  have inv := (BookInv.new market).run ops
  generalize (OrderBook.new market).run ops = book at *
  have outcome := submitOrder_outcome book args clock
  rw [accepted] at outcome
  cases outcome with
  | killed stpRate positive _ short =>
      exact iff_of_true (Or.inl ⟨rfl, rfl, rfl⟩) (Or.inl short)
  | executed stpRate positive _ _ liquid =>
      have effect := executed_effect inv positive stpRate liquid clock.record
      have enough : args.size.raw ≤ book.availableLiquidity (book.newOrder args) :=
        liquid fillOrKill
      have asked : (book.newOrder args).openRaw = args.size.raw := sub_zero _
      have unfilled := opposing_unfilled inv (book.newOrder args)
      have deep : args.size.raw ≤ depth (opposing book (book.newOrder args)) :=
        enough.trans (availableLiquidity_le inv _)
      have whole := @foreign_whole_iff args.userId _ _ unfilled positive.le deep
      have traded := effect.tradedSize inv
      -- the order took something, so the book is not the one before
      have taken : ∃ share, share ∈ takes book (book.newOrder args) := by
        refine List.exists_mem_of_ne_nil _ (fun empty => ?_)
        have met := total_allot unfilled (asked.symm ▸ positive.le)
        rw [asked, min_eq_left deep, ← asked, ← takes, empty, asked] at met
        exact positive.ne met
      obtain ⟨share, member⟩ := taken
      have touched := effect.touched inv member
      rw [takes, asked] at traded
      rw [AllOrNothing, traded, whole]
      constructor
      · intro given
        rcases given with ⟨_, _, same⟩ | filled
        · exact absurd same touched
        · exact Or.inr filled
      · intro given
        rcases given with short | filled
        · exact absurd enough (not_le.mpr short)
        · exact Or.inr filled

/-- Dave buys the two units alice offers, which no order of his own precedes. -/
theorem fill_or_kill_atomic_dave
    : ∃ submission next,
        ((OrderBook.new "XRP-RLUSD-PERP").run
            [.setAttestedMs 1, .submitOrder (limitOrder "alice" .short 101 2 .gtc) ⟨0, 0⟩]).submitOrder
            (limitOrder "dave" .long 101 2 .fok) ⟨0, 0⟩
          = (.ok submission, next)
        ∧ AllOrNothing
            ((OrderBook.new "XRP-RLUSD-PERP").run
              [.setAttestedMs 1, .submitOrder (limitOrder "alice" .short 101 2 .gtc) ⟨0, 0⟩])
            (limitOrder "dave" .long 101 2 .fok) submission next :=
  ⟨_, _, rfl, (fill_or_kill_atomic_iff "XRP-RLUSD-PERP" _ rfl rfl).mpr (Or.inr (by decide +kernel))⟩

/-- Carol offers one unit at 100 and alice two at 101. Carol's fill-or-kill order for two
units passes the pre-check on alice's two, burns one unit against her own offer and trades one.
-/
theorem fill_or_kill_trades_half
    : ∃ submission next,
        ((OrderBook.new "XRP-RLUSD-PERP").run
            [.setAttestedMs 1, .submitOrder (limitOrder "carol" .short 100 1 .gtc) ⟨0, 0⟩,
              .submitOrder (limitOrder "alice" .short 101 2 .gtc) ⟨0, 0⟩]).submitOrder
            (limitOrder "carol" .long 101 2 .fok) ⟨0, 0⟩
          = (.ok submission, next)
        ∧ tradedSize submission.trades = 1
        ∧ ¬ AllOrNothing
              ((OrderBook.new "XRP-RLUSD-PERP").run
                [.setAttestedMs 1, .submitOrder (limitOrder "carol" .short 100 1 .gtc) ⟨0, 0⟩,
                  .submitOrder (limitOrder "alice" .short 101 2 .gtc) ⟨0, 0⟩])
              (limitOrder "carol" .long 101 2 .fok) submission next := by
  refine ⟨_, _, rfl, by decide +kernel, fun given => ?_⟩
  rcases given with ⟨_, none, _⟩ | whole
  · exact absurd none (by decide +kernel)
  · exact absurd whole (by decide +kernel)

-----------------------------------------------------------------------------------------
-- What the pre-check counts
-----------------------------------------------------------------------------------------

/-- The orders of other users on the opposite side that an order crosses. -/
def crossingOthers (book : OrderBook) (order : Order) : List Order :=
  (queue order.side.opposite (book.levels order.side.opposite)).filter
    (fun maker => maker.userId ≠ order.userId && mayTrade order maker)

/-- The total remaining quantity of the other users' crossing orders. -/
def crossingLiquidity (book : OrderBook) (order : Order) : Int :=
  ((crossingOthers book order).map (fun maker => maker.remaining.raw)).sum

/-- The pre-check agrees with matching on an order: it counts the crossing liquidity, and a
fill-or-kill order that is killed asked for more than that.
-/
def PrecheckAgrees (book : OrderBook) (order : Order) : Prop :=
  book.availableLiquidity order = crossingLiquidity book order
  ∧ ∀ args clock submission next,
      book.newOrder args = order
      → args.timeInForce = .fok
      → book.submitOrder args clock = (.ok submission, next)
      → submission.trades = []
      → submission.stpCancelled = []
      → crossingLiquidity book order < args.size.raw

/-- When the pre-check counts right: the walk does not stop at a bid below the limit while
other users' bids above it cross, and the total fits an `i64`.
-/
def CountsRight (book : OrderBook) (order : Order) : Prop :=
  (order.side = .long ∨ order.orderType = .market
    ∨ (∀ maker ∈ queue order.side.opposite (book.levels order.side.opposite),
        mayTrade order maker = true)
    ∨ crossingOthers book order = [])
  ∧ crossingLiquidity book order < 2 ^ 63

/-- Adding up with wrap-around at each step wraps the sum. -/
theorem scan_eq_wrap (userId : String) (makers : List Order) (start : Int)
    (fits : I64Range start)
    : makers.foldl
        (fun total maker =>
          if maker.userId ≠ userId then wrapI64 (total + maker.remaining.raw) else total)
        start
      = wrapI64
          (start
            + ((makers.filter (fun maker => maker.userId ≠ userId)).map
                (fun maker => maker.remaining.raw)).sum) := by
  induction makers generalizing start with
  | nil => simpa using (wrapI64_eq fits).symm
  | cons maker rest ih =>
      simp only [List.foldl_cons]
      split_ifs with foreign
      · rw [ih _ (wrapI64_range _), wrapI64_add]
        simp [foreign, add_assoc]
      · rw [ih _ fits]
        simp [foreign]

/-- The levels the walk visits: all crossing ones, except for a limit sale against bids of
which the lowest does not cross, where it visits none.
-/
theorem scanned_cases (levels : Levels) (order : Order)
    : (levels.entries.takeWhile (fun entry => crosses order entry.1)
          = levels.entries.filter (fun entry => crosses order entry.1)
        ∧ (order.side = .long ∨ order.orderType = .market
          ∨ ∀ entry ∈ levels.entries, crosses order entry.1 = true))
      ∨ (levels.entries.takeWhile (fun entry => crosses order entry.1) = []
        ∧ order.side = .short ∧ order.orderType = .limit
        ∧ ∃ entry ∈ levels.entries, crosses order entry.1 = false) := by
  have everything : (∀ entry ∈ levels.entries, crosses order entry.1 = true)
      → levels.entries.takeWhile (fun entry => crosses order entry.1)
        = levels.entries.filter (fun entry => crosses order entry.1) := fun all => by
    rw [List.takeWhile_eq_self_iff.mpr all, List.filter_eq_self.mpr all]
  cases kind : order.orderType with
  | market =>
      refine Or.inl ⟨everything (fun entry _ => ?_), Or.inr (Or.inl rfl)⟩
      simp [crosses, kind]
  | limit =>
      cases side : order.side with
      | long =>
          refine Or.inl ⟨(span_crosses ?_).1, Or.inl rfl⟩
          rw [side]
          exact levels.sorted.imp le_of_lt
      | short =>
          cases listed : levels.entries with
          | nil => exact Or.inl ⟨rfl, Or.inr (Or.inr (by simp))⟩
          | cons lowest rest =>
              by_cases crossed : crosses order lowest.1 = true
              · -- every other bid is higher, so it crosses too
                have all : ∀ entry ∈ levels.entries, crosses order entry.1 = true := by
                  intro entry member
                  rw [listed] at member
                  have sorted := levels.sorted
                  rw [listed, List.pairwise_cons] at sorted
                  rcases List.mem_cons.mp member with rfl | higher
                  · exact crossed
                  · have above := sorted.1 entry higher
                    simp only [crosses, kind, side, Bool.or_eq_true, decide_eq_true_eq] at crossed ⊢
                    exact crossed.imp_right (fun bound => by omega)
                rw [listed] at all everything
                exact Or.inl ⟨everything all, Or.inr (Or.inr all)⟩
              · refine Or.inr ⟨?_, rfl, rfl, lowest, List.mem_cons_self, by simpa using crossed⟩
                simp [crossed]

theorem crossingLiquidity_nonneg {book : OrderBook} (inv : BookInv book) (order : Order)
    : 0 ≤ crossingLiquidity book order
      ∧ (crossingLiquidity book order = 0 ↔ crossingOthers book order = []) := by
  have positive : ∀ maker ∈ crossingOthers book order, 0 < maker.remaining.raw := by
    intro maker member
    have unfilled := (inv.levels order.side.opposite).unfilled maker
      (List.mem_of_mem_filter member)
    rw [unfilled.sane.remaining_open]
    exact unfilled.open_pos
  rw [crossingLiquidity]
  generalize crossingOthers book order = makers at positive
  cases makers with
  | nil => simp
  | cons maker rest =>
      have sum : 0 < ((maker :: rest).map (fun maker => maker.remaining.raw)).sum := by
        refine List.sum_pos _ (fun amount listed => ?_) (by simp)
        obtain ⟨other, found, rfl⟩ := List.mem_map.mp listed
        exact positive other found
      exact ⟨sum.le, iff_of_false sum.ne' (List.cons_ne_nil _ _)⟩

/-- Walking all crossing levels counts the crossing liquidity, up to wrap-around. -/
theorem availableLiquidity_crossing {book : OrderBook} (inv : BookInv book) {order : Order}
    (all
      : (book.levels order.side.opposite).entries.takeWhile (fun entry => crosses order entry.1)
        = (book.levels order.side.opposite).entries.filter
            (fun entry => crosses order entry.1))
    : book.availableLiquidity order = wrapI64 (crossingLiquidity book order) := by
  have filed := Filed.of_resting (inv.levels order.side.opposite).resting
  rw [availableLiquidity_scan, all, flatMap_filter_price filed (crosses order),
    scan_eq_wrap _ _ _ (by decide), zero_add, List.filter_filter, crossingLiquidity,
    crossingOthers]
  have listed := queue_perm order.side.opposite (book.levels order.side.opposite)
  rw [BTreeMap.values, ← List.flatMap_def] at listed
  refine congrArg wrapI64 (List.Perm.sum_eq (List.Perm.map _ ?_))
  refine (List.Perm.filter _ listed.symm).trans (List.Perm.of_eq ?_)
  exact List.filter_congr (fun maker _ => by rw [mayTrade_eq])

/-- The pre-check counts what crosses exactly if its walk is not cut short on the bid side and
the crossing liquidity fits an `i64`.
-/
theorem availableLiquidity_eq_iff {book : OrderBook} (inv : BookInv book) (order : Order)
    : book.availableLiquidity order = crossingLiquidity book order ↔ CountsRight book order := by
  obtain ⟨nonneg, zeroIff⟩ := crossingLiquidity_nonneg inv order
  have side := inv.levels order.side.opposite
  rcases scanned_cases (book.levels order.side.opposite) order with
    ⟨all, reason⟩ | ⟨none, isShort, isLimit, entry, listed, below⟩
  · rw [availableLiquidity_crossing inv all]
    constructor
    · intro same
      refine ⟨?_, same ▸ (wrapI64_range _).2⟩
      refine reason.imp_right (Or.imp_right (fun crossed => Or.inl ?_))
      intro maker member
      obtain ⟨entry, found, present⟩ := mem_queue.mp member
      rw [mayTrade_eq, (side.resting entry found maker present).price]
      exact crossed entry found
    · intro right
      exact wrapI64_eq ⟨by omega, right.2⟩
  · have nothing : book.availableLiquidity order = 0 := by
      rw [availableLiquidity_scan, none]
      rfl
    rw [nothing, eq_comm, zeroIff]
    constructor
    · intro quiet
      have total := zeroIff.mpr quiet
      exact ⟨Or.inr (Or.inr (Or.inr quiet)), by omega⟩
    · intro right
      rcases right.1 with long | market | all | quiet
      · exact absurd (isShort.symm.trans long) (by decide)
      · exact absurd (isLimit.symm.trans market) (by decide)
      · obtain ⟨maker, present⟩ := List.exists_mem_of_ne_nil _ (side.nonempty entry listed)
        have crossed := all maker (mem_queue.mpr ⟨entry, listed, present⟩)
        rw [mayTrade_eq, (side.resting entry listed maker present).price, below] at crossed
        exact absurd crossed (by decide)
      · exact quiet

/-- The pre-check agrees with matching exactly if its walk is not cut short on the bid side
and the crossing liquidity fits an `i64`.
-/
theorem precheck_agrees_iff {book : OrderBook} (inv : BookInv book) (order : Order)
    : PrecheckAgrees book order ↔ CountsRight book order := by
  have counts := availableLiquidity_eq_iff inv order
  refine ⟨fun agrees => counts.mp agrees.1, fun right => ⟨counts.mpr right, ?_⟩⟩
  intro args clock submission next isOrder fillOrKill accepted untraded uncancelled
  have outcome := submitOrder_outcome book args clock
  rw [accepted] at outcome
  have agreed := counts.mpr right
  cases outcome with
  | killed stpRate _ _ short =>
      rw [← agreed, ← isOrder]
      exact short
  | executed stpRate positive _ _ liquid =>
      -- an executed order takes its whole size, from others or from its own user
      have effect := executed_effect inv positive stpRate liquid clock.record
      have asked : (book.newOrder args).openRaw = args.size.raw := sub_zero _
      have deep : args.size.raw ≤ depth (opposing book (book.newOrder args)) :=
        (liquid fillOrKill).trans (availableLiquidity_le inv _)
      have met := total_allot (opposing_unfilled inv (book.newOrder args))
        (asked.symm ▸ positive.le)
      have traded := effect.tradedSize inv
      have cancelled := effect.cancelledSize
      have split := total_split args.userId (takes book (book.newOrder args))
      rw [untraded] at traded
      rw [uncancelled] at cancelled
      rw [asked, min_eq_left deep, ← asked, ← takes] at met
      simp only [tradedSize, cancelledSize, List.map_nil, List.sum_nil] at traded cancelled
      omega

/-- Dave's sale down to the lowest bid is counted right: the three bids hold six units. -/
theorem precheck_agrees_threeBids
    : PrecheckAgrees threeBids (threeBids.newOrder (limitOrder "dave" .short 90 6 .fok)) := by
  refine (precheck_agrees_iff ((BookInv.new _).run _) _).mpr ⟨Or.inr (Or.inr (Or.inl ?_)), ?_⟩
  · decide +kernel
  · decide +kernel

/-- Dave's fill-or-kill sale of two units at 92 crosses the bids of alice and carol for three
units, but the walk starts at bob's bid of 90, counts nothing and kills the order.
-/
theorem precheck_stops_at_lowest_bid
    : threeBids.availableLiquidity (threeBids.newOrder (limitOrder "dave" .short 92 2 .fok)) = 0
      ∧ crossingLiquidity threeBids (threeBids.newOrder (limitOrder "dave" .short 92 2 .fok)) = 3
      ∧ (∃ submission next,
          threeBids.submitOrder (limitOrder "dave" .short 92 2 .fok) ⟨0, 0⟩
            = (.ok submission, next)
          ∧ submission.order.status = .cancelled ∧ submission.trades = []
          ∧ submission.stpCancelled = [])
      ∧ ¬ PrecheckAgrees threeBids
            (threeBids.newOrder (limitOrder "dave" .short 92 2 .fok)) := by
  have counted : threeBids.availableLiquidity
      (threeBids.newOrder (limitOrder "dave" .short 92 2 .fok)) = 0 := by decide +kernel
  have crossed : crossingLiquidity threeBids
      (threeBids.newOrder (limitOrder "dave" .short 92 2 .fok)) = 3 := by decide +kernel
  refine ⟨counted, crossed, ⟨_, _, rfl, by decide +kernel, by decide +kernel, by decide +kernel⟩,
    fun agrees => ?_⟩
  rw [PrecheckAgrees, counted, crossed] at agrees
  exact absurd agrees.1 (by decide)

end PerpDex
