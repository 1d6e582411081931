import PerpDex.OrderBook.Allotment

/-! What an operation does to the order behind an id.
A lookup after a submission is a function of the lookup before and of the shares the order
took; a cancel removes one id and a cancel of a user that user's ids.
-/

namespace PerpDex

open OrderBook

/-- The first order of a list with an id. -/
def findId (orders : List Order) (orderId : Nat) : Option Order :=
  orders.find? (fun order => order.id = orderId)

theorem findId_eq_some_iff {orders : List Order} (distinct : (orders.map Order.id).Nodup)
    {orderId : Nat} {order : Order}
    : findId orders orderId = some order ↔ order ∈ orders ∧ order.id = orderId := by
  constructor
  · intro found
    have isId := List.find?_some found
    exact ⟨List.mem_of_find?_eq_some found, by simpa using isId⟩
  · intro given
    rcases given with ⟨member, same⟩
    cases found : findId orders orderId with
    | none =>
        have none := List.find?_eq_none.mp found order member
        exact absurd same (by simpa using none)
    | some other =>
        have otherId : other.id = orderId := by simpa using List.find?_some found
        rw [List.inj_on_of_nodup_map distinct (List.mem_of_find?_eq_some found) member
          (otherId.trans same.symm)]

theorem findId_eq_none_iff {orders : List Order} {orderId : Nat}
    : findId orders orderId = none ↔ ∀ order ∈ orders, order.id ≠ orderId := by
  simp [findId]

/-- With distinct ids a lookup does not depend on the order of the list. -/
theorem findId_perm {left right : List Order} (perm : left.Perm right)
    (distinct : (left.map Order.id).Nodup) (orderId : Nat)
    : findId left orderId = findId right orderId := by
  have distinctRight := (perm.map Order.id).nodup_iff.mp distinct
  apply Option.ext
  intro order
  rw [findId_eq_some_iff distinct, findId_eq_some_iff distinctRight, perm.mem_iff]

theorem findId_append (front back : List Order) (orderId : Nat)
    : findId (front ++ back) orderId = (findId front orderId).or (findId back orderId) :=
  List.find?_append

/-- An id found in the second of two lists is not found in the first. -/
theorem findId_front_none {front back : List Order}
    (distinct : ((front ++ back).map Order.id).Nodup) {order : Order} (member : order ∈ back)
    : findId front order.id = none := by
  rw [List.map_append, List.nodup_append] at distinct
  refine findId_eq_none_iff.mpr (fun other found same => ?_)
  exact distinct.2.2 other.id (List.mem_map_of_mem found) order.id (List.mem_map_of_mem member)
    same

theorem getOrder_eq_some_iff {book : OrderBook} (inv : BookInv book) {orderId : Nat}
    {order : Order}
    : book.getOrder orderId = some order ↔ order ∈ book.restingOrders ∧ order.id = orderId :=
  findId_eq_some_iff inv.distinct

theorem getOrder_eq_none_iff {book : OrderBook} {orderId : Nat}
    : book.getOrder orderId = none ↔ ∀ order ∈ book.restingOrders, order.id ≠ orderId :=
  findId_eq_none_iff

/-- An id that was not issued yet is not found. -/
theorem getOrder_unissued {book : OrderBook} (inv : BookInv book) {orderId : Nat}
    (unissued : book.nextOrderId ≤ orderId)
    : book.getOrder orderId = none :=
  getOrder_eq_none_iff.mpr (fun order member => ((inv.issued order member).trans_le unissued).ne)

/-- The share that falls to the maker with an id. -/
def shareOf (shares : List Share) (orderId : Nat) : Option Share :=
  shares.find? (fun share => share.1.id = orderId)

theorem shareOf_some {shares : List Share} {orderId : Nat} {share : Share}
    (found : shareOf shares orderId = some share)
    : share ∈ shares ∧ share.1.id = orderId :=
  ⟨List.mem_of_find?_eq_some found, by simpa using List.find?_some found⟩

theorem shareOf_none {shares : List Share} {orderId : Nat}
    (missing : shareOf shares orderId = none)
    : ∀ share ∈ shares, share.1.id ≠ orderId := by
  simpa [shareOf] using missing

theorem shareOf_eq {shares : List Share} (distinct : (shares.map (fun share => share.1.id)).Nodup)
    {share : Share} (member : share ∈ shares)
    : shareOf shares share.1.id = some share := by
  cases found : shareOf shares share.1.id with
  | none => exact absurd rfl (shareOf_none found share member)
  | some other =>
      obtain ⟨otherMember, same⟩ := shareOf_some found
      rw [List.inj_on_of_nodup_map distinct otherMember member same]

/-- What is left of a maker differs from it in the filled quantity and the status only. -/
theorem shareLeft_terms {userId : String} {share : Share} {order : Order}
    (left : shareLeft userId share = some order)
    : order = { share.1 with filled := order.filled, status := order.status } := by
  obtain ⟨maker, quantity⟩ := share
  by_cases whole : quantity = maker.openRaw
  · simp [shareLeft, whole] at left
  · simp only [shareLeft, if_neg whole] at left
    rw [← Option.some.inj left]

theorem shareLeft_id {userId : String} {share : Share} {order : Order}
    (left : shareLeft userId share = some order)
    : order.id = share.1.id := by
  rw [shareLeft_terms left]

/-- Looking an id up among the leftovers finds the leftover of its share. -/
theorem findId_leftovers {shares : List Share}
    (distinct : (shares.map (fun share => share.1.id)).Nodup) (userId : String) (orderId : Nat)
    : findId (shares.filterMap (shareLeft userId)) orderId
      = (shareOf shares orderId).bind (shareLeft userId) := by
  induction shares with
  | nil => rfl
  | cons share rest ih =>
      obtain ⟨fresh, tail⟩ := List.nodup_cons.mp distinct
      have later := ih tail
      by_cases same : share.1.id = orderId
      · have missing : findId (rest.filterMap (shareLeft userId)) orderId = none := by
          refine findId_eq_none_iff.mpr (fun order member clash => fresh ?_)
          obtain ⟨other, found, left⟩ := List.mem_filterMap.mp member
          have sameId : other.1.id = share.1.id :=
            (shareLeft_id left).symm.trans (clash.trans same.symm)
          exact List.mem_map.mpr ⟨other, found, sameId⟩
        have head : shareOf (share :: rest) orderId = some share := by simp [shareOf, same]
        rw [head, List.filterMap_cons]
        cases left : shareLeft userId share with
        | none => simpa [left] using missing
        | some order => simp [findId, shareLeft_id left, same, left]
      · have head : shareOf (share :: rest) orderId = shareOf rest orderId := by
          simp [shareOf, same]
        rw [head, ← later, List.filterMap_cons]
        cases left : shareLeft userId share with
        | none => rfl
        | some order => simp [findId, shareLeft_id left, same]

-----------------------------------------------------------------------------------------
-- Executing an order
-----------------------------------------------------------------------------------------

/-- The makers an order may trade with, best first. -/
def opposing (book : OrderBook) (order : Order) : List Order :=
  crossing order (queue order.side.opposite (book.levels order.side.opposite))

/-- The shares an order takes from the book. -/
def takes (book : OrderBook) (order : Order) : List Share :=
  allot order.openRaw (opposing book order)

theorem opposing_resting {book : OrderBook} {order maker : Order}
    (member : maker ∈ opposing book order)
    : maker ∈ book.restingOrders :=
  mem_restingOrders.mpr ⟨order.side.opposite, List.mem_of_mem_filter member⟩

theorem opposing_unfilled {book : OrderBook} (inv : BookInv book) (order : Order)
    : ∀ maker ∈ opposing book order, maker.Unfilled := fun maker member =>
  (inv.levels order.side.opposite).unfilled maker (List.mem_of_mem_filter member)

theorem takes_resting {book : OrderBook} {order : Order} {share : Share}
    (member : share ∈ takes book order)
    : share.1 ∈ book.restingOrders :=
  opposing_resting (allot_maker member)

theorem takes_bounds {book : OrderBook} (inv : BookInv book) {order : Order} {share : Share}
    (member : share ∈ takes book order)
    : 0 < share.2 ∧ share.2 ≤ share.1.openRaw :=
  allot_bounds (opposing_unfilled inv order) member

/-- Matching carries out the shares an order takes. -/
theorem matchOrder_allots {book : OrderBook} (inv : BookInv book) {order : Order}
    (sane : order.Sane)
    : ∃ left,
        Allots book.context (book.startMatching order) (opposing book order) left
          (book.matchOrder order).1
        ∧ queue order.side.opposite ((book.matchOrder order).2.levels order.side.opposite)
          = left ++ beyond order (queue order.side.opposite (book.levels order.side.opposite)) := by
  obtain ⟨left, sweeps, after⟩ :=
    (matchOrder_effect (inv.levels order.side.opposite) sane).sweep
  exact ⟨left, sweeps.allots, after⟩

/-- What executing an order returns, in terms of the shares it takes. -/
structure ExecuteReport (book : OrderBook) (order : Order) (submission : Submission) : Prop where
  trades
    : submission.trades
      = shareTrades book.context order book.nextTradeId
          (foreignShares order.userId (takes book order))
  decrements
    : submission.stpCancelled = (ownShares order.userId (takes book order)).map shareDecrement
  terms
    : submission.order
      = { order with
          size := submission.order.size
          filled := submission.order.filled
          status := submission.order.status }
  size
    : submission.order.size.raw
      = order.size.raw - total (ownShares order.userId (takes book order))
  filled
    : submission.order.filled.raw
      = order.filled.raw + total (foreignShares order.userId (takes book order))

theorem executeOrder_report {book : OrderBook} (inv : BookInv book) {order : Order}
    (sane : order.Sane) (recordAt : Nat)
    : ExecuteReport book order (book.executeOrder order recordAt).1 := by
  obtain ⟨_, allots, _⟩ := matchOrder_allots inv sane
  have effect := matchOrder_effect (inv.levels order.side.opposite) sane
  obtain ⟨_, terms⟩ := effect.taker inv sane
  refine ⟨?_, ?_, ?_, allots.size, allots.filled⟩
  · exact allots.trades.trans (List.nil_append _)
  · exact allots.decrements.trans (List.nil_append _)
  · simp only [OrderBook.executeOrder]
    rw [terms]

/-- The resting orders before an execution, split by how the order meets them. -/
theorem restingOrders_split {book : OrderBook} (inv : BookInv book) (order : Order)
    : book.restingOrders.Perm
        (queue order.side (book.levels order.side)
          ++ ((takes book order).map Prod.fst
            ++ ((opposing book order).drop (takes book order).length
              ++ beyond order
                  (queue order.side.opposite (book.levels order.side.opposite))))) := by
  refine (restingOrders_perm book order.side).trans (List.Perm.append_left _ ?_)
  have whole : queue order.side.opposite (book.levels order.side.opposite)
      = opposing book order
        ++ beyond order (queue order.side.opposite (book.levels order.side.opposite)) :=
    queue_split (inv.levels order.side.opposite)
  rw [← List.append_assoc, takes, ← allot_split, ← whole]

/-- The resting orders after matching: shares have become leftovers. -/
theorem matchOrder_split {book : OrderBook} (inv : BookInv book) {order : Order}
    (sane : order.Sane)
    : (book.matchOrder order).2.restingOrders.Perm
        (queue order.side (book.levels order.side)
          ++ ((takes book order).filterMap (shareLeft order.userId)
            ++ ((opposing book order).drop (takes book order).length
              ++ beyond order
                  (queue order.side.opposite (book.levels order.side.opposite))))) := by
  have effect := matchOrder_effect (inv.levels order.side.opposite) sane
  obtain ⟨left, allots, after⟩ := matchOrder_allots inv sane
  refine (restingOrders_perm _ order.side).trans ?_
  rw [effect.own_levels, after, allots.left, List.append_assoc]
  exact List.Perm.refl _

/-- The ids of the makers an order takes shares of are distinct. -/
theorem takes_distinct {book : OrderBook} (inv : BookInv book) (order : Order)
    : ((takes book order).map (fun share => share.1.id)).Nodup := by
  have distinct := ((restingOrders_split inv order).map Order.id).nodup_iff.mp inv.distinct
  simp only [List.map_append] at distinct
  have shares := ((List.nodup_append.mp distinct).2.1 |> List.nodup_append.mp).1
  rw [List.map_map] at shares
  exact shares

/-- Matching changes the order behind an id exactly if a share falls to it. -/
theorem matchOrder_getOrder {book : OrderBook} (inv : BookInv book) {order : Order}
    (sane : order.Sane) (orderId : Nat)
    : (book.matchOrder order).2.getOrder orderId
      = match shareOf (takes book order) orderId with
        | some share => shareLeft order.userId share
        | none => book.getOrder orderId := by
  have before := findId_perm (restingOrders_split inv order) inv.distinct orderId
  have after := findId_perm (matchOrder_split inv sane) (inv.matchOrder sane).distinct orderId
  have distinct := ((restingOrders_split inv order).map Order.id).nodup_iff.mp inv.distinct
  change findId (book.matchOrder order).2.restingOrders orderId = _
  rw [after]
  simp only [findId_append] at before ⊢
  rw [findId_leftovers (takes_distinct inv order)]
  cases found : shareOf (takes book order) orderId with
  | none =>
      have missing : findId ((takes book order).map Prod.fst) orderId = none := by
        refine findId_eq_none_iff.mpr (fun maker member => ?_)
        obtain ⟨share, present, rfl⟩ := List.mem_map.mp member
        exact shareOf_none found share present
      rw [missing] at before
      exact before.symm
  | some share =>
      obtain ⟨member, rfl⟩ := shareOf_some found
      have maker : share.1 ∈ (takes book order).map Prod.fst := List.mem_map_of_mem member
      have own := findId_front_none distinct (List.mem_append_left _ maker)
      rw [List.map_append] at distinct
      have others := (List.nodup_append.mp distinct).2.1
      have rest : findId ((opposing book order).drop (takes book order).length
          ++ beyond order (queue order.side.opposite (book.levels order.side.opposite)))
          share.1.id = none := by
        rw [((List.perm_append_comm).map Order.id).nodup_iff] at others
        exact findId_front_none others maker
      rw [findId_append] at rest
      simp [own, rest]

/-- A remainder that rests is returned with the status it rests with. -/
theorem rests_finalStatus {order : Order} (resting : rests order = true)
    : finalStatus order = order.status := by
  simp only [rests, Bool.and_eq_true, decide_eq_true_eq] at resting
  obtain ⟨⟨⟨⟨sized, limit⟩, gtc⟩, remaining⟩, _⟩ := resting
  have unfilled : order.filled ≠ order.size := by
    intro same
    rw [Order.remaining, same] at remaining
    simp [FP8.sub, FP8.ofRaw, wrapI64] at remaining
  simp [finalStatus, sized, unfilled, limit, gtc]

/-- The order behind an id after an execution: the order itself if it rests, what is left of
a maker that gave up a share, and otherwise what was there before.
-/
theorem executeOrder_getOrder {book : OrderBook} (inv : BookInv book) {order : Order}
    (sane : order.Sane) (fresh : ∀ old ∈ book.restingOrders, old.id < order.id)
    (recordAt orderId : Nat)
    : (book.executeOrder order recordAt).2.getOrder orderId
      = if rests (book.matchOrder order).1.taker ∧ orderId = order.id then
          some (book.executeOrder order recordAt).1.order
        else
          match shareOf (takes book order) orderId with
          | some share => shareLeft order.userId share
          | none => book.getOrder orderId := by
  have effect := matchOrder_effect (inv.levels order.side.opposite) sane
  obtain ⟨_, terms⟩ := effect.taker inv sane
  have idEq : (book.matchOrder order).1.taker.id = order.id := by rw [terms]
  have settled : (book.executeOrder order recordAt).2.getOrder orderId
      = findId (restRemainder (book.matchOrder order).1
          (book.matchOrder order).2).restingOrders orderId := by
    rw [executeOrder_book]
    rfl
  rw [settled, ← matchOrder_getOrder inv sane, restRemainder]
  by_cases resting : rests (book.matchOrder order).1.taker = true
  · have returned : (book.executeOrder order recordAt).1.order
        = (book.matchOrder order).1.taker := by
      simp only [OrderBook.executeOrder, rests_finalStatus resting]
    have perm := addToBook_perm (book.matchOrder order).2 (book.matchOrder order).1.taker
    have distinct : (((book.matchOrder order).1.taker
        :: (book.matchOrder order).2.restingOrders).map Order.id).Nodup := by
      refine List.nodup_cons.mpr ⟨fun member => ?_, (inv.matchOrder sane).distinct⟩
      obtain ⟨old, present, same⟩ := List.mem_map.mp member
      obtain ⟨origin, found, reduced⟩ := (effect.thins inv).restingOrders present
      have below := fresh origin found
      rw [← reduced.id_eq, same, idEq] at below
      exact lt_irrefl _ below
    rw [if_pos resting, ← findId_perm perm.symm distinct, returned]
    simp only [resting, true_and, findId, List.find?_cons, idEq]
    by_cases own : orderId = order.id
    · simp [own]
    · simp only [own, if_false, Ne.symm own, decide_false]
      rfl
  · rw [if_neg resting, if_neg (fun both => resting both.1)]
    rfl

theorem wrapI64_le {value : Int} (lower : -2 ^ 63 ≤ value) : wrapI64 value ≤ value := by
  by_cases fits : I64Range value
  · exact (wrapI64_eq fits).le
  · have upper := (wrapI64_range value).2
    simp only [I64Range, not_and, not_lt] at fits
    exact upper.le.trans (fits lower)

/-- The running total of the liquidity scan never exceeds the depth it has scanned. -/
theorem liquidity_le_depth {userId : String} {makers : List Order}
    (unfilled : ∀ maker ∈ makers, maker.Unfilled) {start : Int} (fits : I64Range start)
    : I64Range
        (makers.foldl
          (fun total maker =>
            if maker.userId ≠ userId then wrapI64 (total + maker.remaining.raw) else total)
          start)
      ∧ makers.foldl
          (fun total maker =>
            if maker.userId ≠ userId then wrapI64 (total + maker.remaining.raw) else total)
          start
        ≤ start + depth makers := by
  induction makers generalizing start with
  | nil => simpa [depth] using fits
  | cons maker rest ih =>
      have others : ∀ other ∈ rest, other.Unfilled := fun other found =>
        unfilled other (List.mem_cons_of_mem _ found)
      have positive := (unfilled maker List.mem_cons_self).open_pos
      have remaining := (unfilled maker List.mem_cons_self).sane.remaining_open
      have depthEq : depth (maker :: rest) = maker.openRaw + depth rest := by simp [depth]
      simp only [List.foldl_cons]
      split_ifs with foreign
      · have lower := fits.1
        have wraps := wrapI64_le (show -2 ^ 63 ≤ start + maker.remaining.raw by omega)
        obtain ⟨range, bound⟩ := ih others (wrapI64_range (start + maker.remaining.raw))
        exact ⟨range, by omega⟩
      · obtain ⟨range, bound⟩ := ih others fits
        exact ⟨range, by omega⟩

/-- The pre-check is one scan over the orders of the levels it walks. -/
theorem availableLiquidity_scan (book : OrderBook) (order : Order)
    : book.availableLiquidity order
      = (((book.levels order.side.opposite).entries.takeWhile
            (fun entry => crosses order entry.1)).flatMap Prod.snd).foldl
          (fun total maker =>
            if maker.userId ≠ order.userId then wrapI64 (total + maker.remaining.raw) else total)
          0 := by
  rw [OrderBook.availableLiquidity, List.foldl_flatMap]

/-- The liquidity pre-check never counts more than the depth the order can meet. -/
theorem availableLiquidity_le {book : OrderBook} (inv : BookInv book) (order : Order)
    : book.availableLiquidity order ≤ depth (opposing book order) := by
  have side := inv.levels order.side.opposite
  generalize scannedDef : (book.levels order.side.opposite).entries.takeWhile
    (fun entry => crosses order entry.1) = scanned
  have sublist : scanned.Sublist ((book.levels order.side.opposite).entries.filter
      (fun entry => crosses order entry.1)) := by
    have passes : scanned.filter (fun entry => crosses order entry.1) = scanned := by
      rw [← scannedDef]
      refine List.filter_eq_self.mpr (fun entry member => ?_)
      have crossed := List.mem_takeWhile_imp member
      exact crossed
    rw [← passes, ← scannedDef]
    exact (List.takeWhile_sublist _).filter _
  have flat : (scanned.flatMap Prod.snd).Sublist
      ((book.levels order.side.opposite).entries.flatMap Prod.snd |>.filter
        (fun maker => crosses order maker.price.raw)) := by
    rw [← flatMap_filter_price (.of_resting side.resting) (crosses order)]
    exact sublist.flatMap _
  have perm : ((book.levels order.side.opposite).entries.flatMap Prod.snd |>.filter
      (fun maker => crosses order maker.price.raw)).Perm (opposing book order) := by
    refine List.Perm.filter _ ?_
    have listed := queue_perm order.side.opposite (book.levels order.side.opposite)
    rw [BTreeMap.values, ← List.flatMap_def] at listed
    exact listed.symm
  have depthLe : depth (scanned.flatMap Prod.snd) ≤ depth (opposing book order) := by
    rw [depth, depth, ← (perm.map Order.openRaw).sum_eq]
    refine (flat.map Order.openRaw).sum_le_sum (fun quantity member => ?_)
    obtain ⟨maker, found, rfl⟩ := List.mem_map.mp member
    exact (opposing_unfilled inv order maker (perm.mem_iff.mp found)).open_pos.le
  have unfilled : ∀ maker ∈ scanned.flatMap Prod.snd, maker.Unfilled := fun maker member =>
    opposing_unfilled inv order maker (perm.mem_iff.mp (flat.mem member))
  have bound := (@liquidity_le_depth order.userId _ unfilled 0 (by decide)).2
  rw [availableLiquidity_scan, scannedDef]
  omega

/-- What an order leaves open: its open quantity less the depth it met. -/
theorem matchOrder_open {book : OrderBook} (inv : BookInv book) {order : Order}
    (sane : order.Sane)
    : (book.matchOrder order).1.taker.openRaw
      = order.openRaw - min order.openRaw (depth (opposing book order)) := by
  obtain ⟨_, allots, _⟩ := matchOrder_allots inv sane
  have nonneg : 0 ≤ order.openRaw := sub_nonneg.mpr sane.2
  have met := total_allot (opposing_unfilled inv order) nonneg
  have split := total_split order.userId (allot order.openRaw (opposing book order))
  have size := allots.size
  have filled := allots.filled
  simp only [startMatching] at size filled
  calc (book.matchOrder order).1.taker.openRaw
      = order.openRaw - total (allot order.openRaw (opposing book order)) := by
        simp only [Order.openRaw] at *
        omega
    _ = _ := by rw [met]

/-- An order with enough depth against it is left with nothing open. -/
theorem matchOrder_exhausted {book : OrderBook} (inv : BookInv book) {order : Order}
    (sane : order.Sane) (deep : order.openRaw ≤ depth (opposing book order))
    : (book.matchOrder order).1.taker.openRaw = 0 := by
  rw [matchOrder_open inv sane, min_eq_left deep, sub_self]

/-- An executed order is returned open with something left exactly if it rests.
Witness: an executed fill-or-kill order has enough depth against it, so nothing is left.
-/
theorem executeOrder_persists {book : OrderBook} (inv : BookInv book) {order : Order}
    (unfilled : order.filled = .zero) (sane : order.Sane) (isOpen : order.status = .open)
    (liquid
      : order.timeInForce = .fok → order.size.raw ≤ book.availableLiquidity order)
    (recordAt : Nat)
    : persists (book.executeOrder order recordAt).1.order
      = rests (book.matchOrder order).1.taker := by
  have effect := matchOrder_effect (inv.levels order.side.opposite) sane
  obtain ⟨takerSane, terms⟩ := effect.taker inv sane
  have statusEq : (book.matchOrder order).1.taker.status = .open := by rw [terms]; exact isOpen
  have tifEq : (book.matchOrder order).1.taker.timeInForce = order.timeInForce := by rw [terms]
  have killed : order.timeInForce = .fok
      → (book.matchOrder order).1.taker.remaining.raw = 0 := by
    intro fok
    rw [takerSane.remaining_open]
    refine matchOrder_exhausted inv sane ?_
    have bound := (liquid fok).trans (availableLiquidity_le inv order)
    simp only [Order.openRaw, unfilled, FP8.raw_zero]
    omega
  have resultEq : (book.executeOrder order recordAt).1.order
      = { (book.matchOrder order).1.taker with
          status := finalStatus (book.matchOrder order).1.taker } := rfl
  rw [resultEq]
  generalize (book.matchOrder order).1.taker = taker at *
  have nonneg := takerSane.1
  rw [Bool.eq_iff_iff]
  constructor
  · intro kept
    simp only [persists, Bool.and_eq_true, decide_eq_true_eq] at kept
    obtain ⟨final, remaining⟩ := kept
    have remaining : 0 < taker.remaining.raw := remaining
    have sized : taker.size.raw ≠ 0 := fun empty => by simp [finalStatus, empty] at final
    have partly : taker.filled ≠ taker.size := fun full => by
      simp [finalStatus, sized, full] at final
    simp only [finalStatus, sized, partly, if_false] at final
    cases typeEq : taker.orderType with
    | market =>
        simp only [typeEq, remaining, if_true] at final
        split_ifs at final
    | limit =>
        cases tif : taker.timeInForce with
        | ioc =>
            simp only [typeEq, tif, remaining, true_and] at final
            split_ifs at final with some' none'
            omega
        | fok =>
            rw [tif] at tifEq
            exact absurd (killed tifEq.symm) remaining.ne'
        | gtc => simp [rests, sized, typeEq, tif, remaining, statusEq]
  · intro resting
    have same := rests_finalStatus resting
    simp only [rests, Bool.and_eq_true, decide_eq_true_eq] at resting
    simp only [persists, same, statusEq, Bool.and_eq_true, decide_eq_true_eq]
    exact ⟨trivial, resting.1.2⟩

/-- Does an order rest? Read off the book before it is matched: it is a limit order that
stays, and the depth it crosses does not use it up.
-/
def restsAfter (book : OrderBook) (order : Order) : Bool :=
  order.orderType = .limit && order.timeInForce = .gtc
  && depth (opposing book order) < order.openRaw

theorem rests_eq_restsAfter {book : OrderBook} (inv : BookInv book) {order : Order}
    (sane : order.Sane) (isOpen : order.status = .open)
    : rests (book.matchOrder order).1.taker = restsAfter book order := by
  have effect := matchOrder_effect (inv.levels order.side.opposite) sane
  obtain ⟨takerSane, terms⟩ := effect.taker inv sane
  have typeEq : (book.matchOrder order).1.taker.orderType = order.orderType := by rw [terms]
  have tifEq : (book.matchOrder order).1.taker.timeInForce = order.timeInForce := by rw [terms]
  have statusEq : (book.matchOrder order).1.taker.status = .open := by rw [terms]; exact isOpen
  have openEq := matchOrder_open inv sane
  have nonneg := takerSane.1
  have sized : 0 < (book.matchOrder order).1.taker.openRaw
      → (book.matchOrder order).1.taker.size.raw ≠ 0 := by
    simp only [Order.openRaw]
    omega
  have shallow : 0 < (book.matchOrder order).1.taker.openRaw
      ↔ depth (opposing book order) < order.openRaw := by
    rw [openEq, sub_pos, min_lt_iff]
    simp
  rw [rests, restsAfter, typeEq, tifEq, statusEq, takerSane.remaining_open, Bool.eq_iff_iff]
  simp only [Bool.and_eq_true, decide_eq_true_eq, and_true, shallow] at sized ⊢
  constructor
  · intro given
    rcases given with ⟨⟨⟨_, limit⟩, gtc⟩, left⟩
    exact ⟨⟨limit, gtc⟩, left⟩
  · intro given
    rcases given with ⟨⟨limit, gtc⟩, left⟩
    exact ⟨⟨⟨sized left, limit⟩, gtc⟩, left⟩

-----------------------------------------------------------------------------------------
-- Submitting
-----------------------------------------------------------------------------------------

/-- What an accepted submission does and reports, in terms of the shares its order takes. -/
structure SubmitEffect (book : OrderBook) (args : SubmitArgs) (submission : Submission)
    (next : OrderBook) (shares : List Share) : Prop where
  taken : (shares = [] ∧ args.timeInForce = .fok) ∨ shares = takes book (book.newOrder args)
  trades
    : submission.trades
      = shareTrades book.context (book.newOrder args) book.nextTradeId
          (foreignShares args.userId shares)
  size
    : submission.order.size.raw = args.size.raw - total (ownShares args.userId shares)
  decrements : submission.stpCancelled = (ownShares args.userId shares).map shareDecrement
  terms
    : submission.order
      = { book.newOrder args with
          size := submission.order.size
          filled := submission.order.filled
          status := submission.order.status }
  resting : persists submission.order → restsAfter book (book.newOrder args)
  lookup
    : ∀ orderId,
        next.getOrder orderId
          = if persists submission.order ∧ orderId = book.nextOrderId then
              some submission.order
            else
              match shareOf shares orderId with
              | some share => shareLeft args.userId share
              | none => book.getOrder orderId
  counter : next.nextOrderId = book.nextOrderId + 1

/-- The makers its trades name are those of the shares taken from others. -/
theorem SubmitEffect.makers {book next : OrderBook} {args : SubmitArgs}
    {submission : Submission} {shares : List Share}
    (effect : SubmitEffect book args submission next shares)
    : submission.trades.map Trade.makerOrderId
      = (foreignShares args.userId shares).map (fun share => share.1.id) := by
  rw [effect.trades]
  exact shareTrades_eq_map _ _ _ _ _ _ (fun _ _ => rfl)

/-- A fill-or-kill order that is killed takes nothing. -/
theorem killed_effect {book : OrderBook} {args : SubmitArgs} (fillOrKill : args.timeInForce = .fok)
    (stpRate : RateLimiter)
    : SubmitEffect book args ⟨{ book.newOrder args with status := .cancelled }, [], []⟩
        (book.countAttempt stpRate) [] := by
  constructor
  · exact Or.inl ⟨rfl, fillOrKill⟩
  · rfl
  · exact (sub_zero _).symm
  · rfl
  · rfl
  · intro kept
    simp [persists] at kept
  · intro orderId
    simp [persists, shareOf]
    rfl
  · rfl

/-- An executed order takes its shares of the book. -/
theorem executed_effect {book : OrderBook} (inv : BookInv book) {args : SubmitArgs}
    (positive : 0 < args.size.raw) (stpRate : RateLimiter)
    (liquid
      : args.timeInForce = .fok
        → args.size.raw ≤ (book.countAttempt stpRate).availableLiquidity (book.newOrder args))
    (recordAt : Nat)
    : SubmitEffect book args
        ((book.countAttempt stpRate).executeOrder (book.newOrder args) recordAt).1
        ((book.countAttempt stpRate).executeOrder (book.newOrder args) recordAt).2
        (takes book (book.newOrder args)) := by
  have admitted : BookInv (book.countAttempt stpRate) := inv.congr rfl rfl (Nat.le_succ _)
  have sane := @newOrder_sane book args positive
  have report := executeOrder_report admitted sane recordAt
  have kept := executeOrder_persists admitted rfl sane rfl liquid recordAt
  constructor
  · exact Or.inr rfl
  · exact report.trades
  · exact report.size
  · exact report.decrements
  · exact report.terms
  · intro persisted
    rw [kept, rests_eq_restsAfter admitted sane rfl] at persisted
    exact persisted
  · intro orderId
    rw [executeOrder_getOrder admitted sane inv.issued, kept]
    rfl
  · rw [executeOrder_book]
    exact (restRemainder_nextOrderId _ _).trans (matchOrder_nextOrderId _ _)

/-- A submission refuses and keeps the resting orders, or has that effect. -/
theorem submitOrder_effect {book : OrderBook} (inv : BookInv book) (args : SubmitArgs)
    (clock : StpClock)
    : (∃ reason stpRate, book.submitOrder args clock = (.error reason, { book with stpRate }))
      ∨ ∃ submission next shares,
          book.submitOrder args clock = (.ok submission, next)
          ∧ SubmitEffect book args submission next shares := by
  have outcome := submitOrder_outcome book args clock
  generalize book.submitOrder args clock = result at outcome ⊢
  cases outcome with
  | refused reason stpRate => exact Or.inl ⟨reason, stpRate, rfl⟩
  | killed stpRate _ fillOrKill _ =>
      exact Or.inr ⟨_, _, [], rfl, killed_effect fillOrKill stpRate⟩
  | executed stpRate positive _ _ liquid =>
      exact Or.inr ⟨_, _, _, rfl, executed_effect inv positive stpRate liquid clock.record⟩

section Shares

variable {book next : OrderBook} {args : SubmitArgs} {submission : Submission}
  {shares : List Share}

theorem SubmitEffect.share_resting (effect : SubmitEffect book args submission next shares)
    {share : Share} (member : share ∈ shares)
    : share.1 ∈ book.restingOrders := by
  rcases effect.taken with ⟨rfl, _⟩ | rfl
  · exact absurd member List.not_mem_nil
  · exact takes_resting member

theorem SubmitEffect.share_distinct (inv : BookInv book)
    (effect : SubmitEffect book args submission next shares)
    : (shares.map (fun share => share.1.id)).Nodup := by
  rcases effect.taken with ⟨rfl, _⟩ | rfl
  · exact List.nodup_nil
  · exact takes_distinct inv _

/-- A share is a positive part of what its maker has open. -/
theorem SubmitEffect.share_bounds (inv : BookInv book)
    (effect : SubmitEffect book args submission next shares) {share : Share}
    (member : share ∈ shares)
    : 0 < share.2 ∧ share.2 ≤ share.1.openRaw := by
  rcases effect.taken with ⟨rfl, _⟩ | rfl
  · exact absurd member List.not_mem_nil
  · exact takes_bounds inv member

theorem SubmitEffect.share_unfilled (inv : BookInv book)
    (effect : SubmitEffect book args submission next shares) {share : Share}
    (member : share ∈ shares)
    : share.1.Unfilled := by
  obtain ⟨side, listed⟩ := mem_restingOrders.mp (effect.share_resting member)
  exact (inv.levels side).unfilled share.1 listed

/-- A share fits the quantity type. -/
theorem SubmitEffect.share_amount (inv : BookInv book)
    (effect : SubmitEffect book args submission next shares) {share : Share}
    (member : share ∈ shares)
    : (FP8.ofRaw share.2).raw = share.2 := by
  obtain ⟨positive, within⟩ := effect.share_bounds inv member
  have filled := (effect.share_unfilled inv member).1
  have top := share.1.size.inRange.2
  simp only [Order.openRaw] at within
  exact FP8.raw_ofRaw ⟨by omega, by omega⟩

/-- The book after a submission at the id of a maker that gave up a share. -/
theorem SubmitEffect.lookup_share (inv : BookInv book)
    (effect : SubmitEffect book args submission next shares) {share : Share}
    (member : share ∈ shares)
    : next.getOrder share.1.id = shareLeft args.userId share := by
  have old := inv.issued _ (effect.share_resting member)
  rw [effect.lookup, if_neg (fun both => old.ne both.2),
    shareOf_eq (effect.share_distinct inv) member]

end Shares

/-- Removing an order from a side keeps exactly the orders with other ids. -/
theorem removeOrder_mem {side : Side} {levels after : Levels} {orderId : Nat} {order : Order}
    (inv : LevelsInv side levels) (distinct : ((queue side levels).map Order.id).Nodup)
    (removed : removeOrder levels orderId = some (order, after)) (other : Order)
    : other ∈ queue side after ↔ other ∈ queue side levels ∧ other.id ≠ orderId := by
  obtain ⟨isId, entry, found, present, rfl⟩ := removeOrder_eq removed
  have erased : ∀ {level : PriceLevel}, (level.map Order.id).Pairwise (· < ·)
      → ∀ other ∈ level.eraseP (fun order => order.id = orderId), other.id ≠ orderId := by
    intro level increasing other member
    induction level with
    | nil => exact absurd member List.not_mem_nil
    | cons head rest ih =>
        rw [List.map_cons, List.pairwise_cons] at increasing
        by_cases same : head.id = orderId
        · rw [List.eraseP_cons_of_pos (by simpa using same)] at member
          have above := increasing.1 other.id (List.mem_map_of_mem member)
          omega
        · rw [List.eraseP_cons_of_neg (by simpa using same)] at member
          rcases List.mem_cons.mp member with rfl | later
          · exact same
          · exact ih increasing.2 later
  rw [queue_dropEmpty, mem_queue, mem_queue]
  simp only [BTreeMap.modify, BTreeMap.mapValues, BTreeMap.mapEntries, List.mem_map]
  constructor
  · intro given
    rcases given with ⟨_, ⟨old, oldFound, rfl⟩, member⟩
    simp only at member
    split_ifs at member with priced
    · exact ⟨⟨old, oldFound, List.mem_of_mem_eraseP member⟩,
        erased (inv.increasing old oldFound) other member⟩
    · refine ⟨⟨old, oldFound, member⟩, fun clash => priced ?_⟩
      have same : other = order := List.inj_on_of_nodup_map distinct
        (mem_queue.mpr ⟨old, oldFound, member⟩) (mem_queue.mpr ⟨entry, found, present⟩)
        (clash.trans isId.symm)
      rw [← (inv.resting old oldFound other member).price,
        ← (inv.resting entry found order present).price, same]
  · intro given
    rcases given with ⟨⟨old, oldFound, member⟩, apart⟩
    refine ⟨_, ⟨old, oldFound, rfl⟩, ?_⟩
    simp only
    split_ifs
    · exact (List.mem_eraseP_of_neg (by simpa using apart)).mpr member
    · exact member

theorem removeOrder_none {side : Side} {levels : Levels} {orderId : Nat}
    (missing : removeOrder levels orderId = none)
    : ∀ order ∈ queue side levels, order.id ≠ orderId := by
  intro order member same
  obtain ⟨entry, found, present⟩ := mem_queue.mp member
  simp only [removeOrder] at missing
  split at missing
  · rename_i none
    have clear := List.find?_eq_none.mp none entry found
    simp only [List.any_eq_true, decide_eq_true_eq, not_exists, not_and] at clear
    exact clear order present same
  · rename_i price level located
    have hit := List.find?_some located
    simp only [List.any_eq_true, decide_eq_true_eq] at hit
    rw [Option.map_eq_none_iff, List.find?_eq_none] at missing
    obtain ⟨other, otherPresent, otherId⟩ := hit
    exact missing other otherPresent (by simpa using otherId)

/-- Everything a cancel can do: report an unknown id, or take the order off the book. -/
inductive CancelOutcome (book : OrderBook) (orderId : Nat)
    : Except String Order × OrderBook → Prop
  | missing (unknown : book.getOrder orderId = none)
    : CancelOutcome book orderId (.error s!"order {orderId} not found", book)
  | removed {order : Order} {next : OrderBook} (found : book.getOrder orderId = some order)
    (others
      : ∀ other,
          next.getOrder other = if other = orderId then none else book.getOrder other)
    (counter : next.nextOrderId = book.nextOrderId)
    : CancelOutcome book orderId (.ok { order with status := .cancelled }, next)

/-- A lookup in a book from which exactly one id was taken. -/
theorem getOrder_without {book next : OrderBook} (inv : BookInv book) (nextInv : BookInv next)
    {orderId : Nat}
    (kept
      : ∀ order,
          order ∈ next.restingOrders ↔ order ∈ book.restingOrders ∧ order.id ≠ orderId)
    (other : Nat)
    : next.getOrder other = if other = orderId then none else book.getOrder other := by
  split_ifs with same
  · refine getOrder_eq_none_iff.mpr (fun order member => ?_)
    rw [same]
    exact ((kept order).mp member).2
  · apply Option.ext
    intro order
    rw [getOrder_eq_some_iff nextInv, getOrder_eq_some_iff inv, kept]
    constructor
    · intro given
      rcases given with ⟨⟨member, _⟩, isId⟩
      exact ⟨member, isId⟩
    · intro given
      rcases given with ⟨member, isId⟩
      exact ⟨⟨member, isId ▸ same⟩, isId⟩

theorem BookInv.distinct_queue {book : OrderBook} (inv : BookInv book) (side : Side)
    : ((queue side (book.levels side)).map Order.id).Nodup := by
  have distinct := ((restingOrders_perm book side).map Order.id).nodup_iff.mp inv.distinct
  rw [List.map_append] at distinct
  exact (List.nodup_append.mp distinct).1

/-- Removing an order from one side of the book is a successful cancel. -/
theorem removeOrder_outcome {book : OrderBook} (inv : BookInv book) {orderId : Nat}
    {side : Side} {order : Order} {levels : Levels}
    (removed : removeOrder (book.levels side) orderId = some (order, levels))
    (nextInv : BookInv (book.setLevels side levels))
    : CancelOutcome book orderId
        (.ok { order with status := .cancelled }, book.setLevels side levels) := by
  obtain ⟨isId, entry, found, present, _⟩ := removeOrder_eq removed
  have member : order ∈ queue side (book.levels side) := mem_queue.mpr ⟨entry, found, present⟩
  have listed := getOrder_eq_some_iff inv |>.mpr ⟨mem_restingOrders.mpr ⟨side, member⟩, isId⟩
  refine .removed listed (getOrder_without inv nextInv (fun other => ?_)) ?_
  · have distinct := ((restingOrders_perm book side).map Order.id).nodup_iff.mp inv.distinct
    have elsewhere : ∀ other ∈ queue side.opposite (book.levels side.opposite),
        other.id ≠ orderId := by
      intro other otherMember same
      rw [List.map_append, List.nodup_append] at distinct
      exact distinct.2.2 order.id (List.mem_map_of_mem member) other.id
        (List.mem_map_of_mem otherMember) (isId.trans same.symm)
    have oppositeEq : (book.setLevels side levels).levels side.opposite
        = book.levels side.opposite := by cases side <;> rfl
    rw [(restingOrders_perm _ side).mem_iff, (restingOrders_perm book side).mem_iff,
      levels_setLevels, oppositeEq, List.mem_append, List.mem_append,
      removeOrder_mem (inv.levels side) (inv.distinct_queue side) removed]
    constructor
    · intro given
      rcases given with ⟨kept, apart⟩ | opposite
      · exact ⟨Or.inl kept, apart⟩
      · exact ⟨Or.inr opposite, elsewhere other opposite⟩
    · intro given
      rcases given with ⟨kept | opposite, apart⟩
      · exact Or.inl ⟨kept, apart⟩
      · exact Or.inr opposite
  · cases side <;> rfl

theorem cancelOrder_outcome {book : OrderBook} (inv : BookInv book) (orderId : Nat)
    : CancelOutcome book orderId (book.cancelOrder orderId) := by
  have nextInv := inv.cancelOrder orderId
  simp only [OrderBook.cancelOrder] at nextInv ⊢
  cases bid : removeOrder book.bids orderId with
  | some result =>
      simp only [bid] at nextInv
      exact @removeOrder_outcome book inv orderId .long result.1 result.2 bid nextInv
  | none =>
      simp only [bid] at nextInv ⊢
      cases ask : removeOrder book.asks orderId with
      | some result =>
          simp only [ask] at nextInv
          exact @removeOrder_outcome book inv orderId .short result.1 result.2 ask nextInv
      | none =>
          refine .missing (getOrder_eq_none_iff.mpr (fun order member => ?_))
          obtain ⟨side, found⟩ := mem_restingOrders.mp member
          cases side
          · exact removeOrder_none bid order found
          · exact removeOrder_none ask order found

/-- Cancelling a user's orders hides exactly that user's orders. -/
theorem cancelAll_getOrder {book : OrderBook} (inv : BookInv book) (userId : String)
    (orderId : Nat)
    : (book.cancelAll userId).2.getOrder orderId
      = (book.getOrder orderId).filter (fun order => order.userId ≠ userId) := by
  apply Option.ext
  intro order
  rw [getOrder_eq_some_iff (inv.cancelAll userId), cancelAll_restingOrders,
    Option.filter_eq_some_iff, getOrder_eq_some_iff inv, List.mem_filter]
  tauto

/-- Cancelling a user's orders loses exactly the ids it reports. -/
theorem cancelAll_lookup {book : OrderBook} (inv : BookInv book) (userId : String)
    (orderId : Nat)
    : (book.cancelAll userId).2.getOrder orderId
      = if orderId ∈ (book.cancelAll userId).1.map Order.id then none
        else book.getOrder orderId := by
  have reported : orderId ∈ (book.cancelAll userId).1.map Order.id
      ↔ ∃ order ∈ book.restingOrders, order.userId = userId ∧ order.id = orderId := by
    simp [OrderBook.cancelAll, OrderBook.userOrders, and_assoc]
  rw [cancelAll_getOrder inv]
  split_ifs with listed
  · obtain ⟨order, member, mine, isId⟩ := reported.mp listed
    rw [(getOrder_eq_some_iff inv).mpr ⟨member, isId⟩]
    simp [mine]
  · cases found : book.getOrder orderId with
    | none => rfl
    | some order =>
        obtain ⟨member, isId⟩ := (getOrder_eq_some_iff inv).mp found
        have other : order.userId ≠ userId := fun mine =>
          listed (reported.mpr ⟨order, member, mine, isId⟩)
        simp [other]

end PerpDex
