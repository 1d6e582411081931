import PerpDex.Api.Statements
import PerpDex.Lib.Run

/-! The persisted mirror of the book, one request at a time.
A submission writes the row of every order it touched; cancels delete theirs. The mirror
survives a run whose closing orders meet an empty side and whose resting orders fit their
columns, and then a failover rebuilds the same levels.
-/

namespace PerpDex

open OrderBook

/-- The terms of an order that a failover must restore. -/
structure OrderView where
  id : Nat
  userId : String
  side : Side
  price : FP8
  size : FP8
  filled : FP8
  leverage : UInt32
  reduceOnly : Bool
deriving DecidableEq

def Order.view (order : Order) : OrderView where
  id := order.id
  userId := order.userId
  side := order.side
  price := order.price
  size := order.size
  filled := order.filled
  leverage := order.leverage
  reduceOnly := order.reduceOnly

/-- A row whose signature the reload accepts. -/
def RestingRow.Verified (crypto : Crypto) (row : RestingRow) : Prop :=
  verifySignatureOnly crypto row.binding = .ok () ∧ row.binding.signerAddress = row.userId

/-- The table holds exactly the resting orders, each under a signature that verifies. -/
structure Mirrors (crypto : Crypto) (table : RestingOrders) (book : OrderBook) : Prop where
  rows
    : ∀ orderId,
        (table.get? orderId).map (fun row => (rowOrder orderId row).view)
          = (book.getOrder orderId).map Order.view
  verified : ∀ orderId row, table.get? orderId = some row → row.Verified crypto

theorem restingRow_view (order : Order) (binding : OrderSignatureBinding)
    : (rowOrder order.id (restingRow order binding)).view = order.view := by
  cases side : order.side <;>
    simp [rowOrder, restingRow, Order.view, side, Side.toString]

section Submit

variable {book next : OrderBook} {args : SubmitArgs} {submission : Submission}
  {shares : List Share}

/-- What is left of a maker differs from it in `filled` and `status` only. -/
theorem shareLeft_view {userId : String} {share : Share} {left : Order}
    (kept : shareLeft userId share = some left)
    : left.view = { share.1.view with filled := left.filled } := by
  rw [shareLeft_terms kept]
  rfl

/-- The row of an order that rests is stored as it is: its id is new and it fits. -/
theorem Mirrors.inserted {crypto : Crypto} {table : RestingOrders} (inv : BookInv book)
    (mirrors : Mirrors crypto table book)
    (effect : SubmitEffect book args submission next shares) {binding : OrderSignatureBinding}
    (fits
      : restsAfter book (book.newOrder args)
        → (restingRow (book.newOrder args) binding).fits = true)
    (kept : persists submission.order = true)
    : (DbStatement.insertRestingOrder submission.order binding).effect
        (table.get? book.nextOrderId)
      = some (restingRow submission.order binding) := by
  have unknown : table.get? book.nextOrderId = none := by
    have unissued := mirrors.rows book.nextOrderId
    rw [getOrder_unissued inv le_rfl] at unissued
    simpa using unissued
  have sameFits : (restingRow submission.order binding).fits
      = (restingRow (book.newOrder args) binding).fits := by
    rw [effect.terms]
    rfl
  simp only [DbStatement.effect, sameFits, fits (effect.resting kept), unknown, if_true]

/-- The row of a maker that gave up a share is brought in line with what is left of it. -/
theorem Mirrors.synced {crypto : Crypto} {table : RestingOrders} (inv : BookInv book)
    (mirrors : Mirrors crypto table book)
    (effect : SubmitEffect book args submission next shares) {share : Share}
    (present : share ∈ shares)
    : ((syncMaker next share.1.id).effect (table.get? share.1.id)).map
        (fun row => (rowOrder share.1.id row).view)
      = (shareLeft args.userId share).map Order.view := by
  have maker := (getOrder_eq_some_iff inv).mpr ⟨effect.share_resting present, rfl⟩
  have before := mirrors.rows share.1.id
  rw [maker] at before
  simp only [syncMaker, effect.lookup_share inv present]
  cases kept : shareLeft args.userId share with
  | none => rfl
  | some left =>
      simp only [DbStatement.effect, Option.map_map, Option.map_some]
      rw [shareLeft_view kept]
      obtain ⟨stored, storedEq, viewEq⟩ := Option.map_eq_some_iff.mp before
      rw [storedEq, Option.map_some, ← viewEq]
      rfl

/-- A sync keeps the signature and the owner of a row. -/
theorem syncMaker_owner {book : OrderBook} {orderId : Nat} {row : Option RestingRow}
    {stored : RestingRow} (synced : (syncMaker book orderId).effect row = some stored)
    : ∃ before, row = some before
      ∧ stored.binding = before.binding ∧ stored.userId = before.userId := by
  simp only [syncMaker] at synced
  split at synced
  · obtain ⟨before, beforeEq, rfl⟩ := Option.map_eq_some_iff.mp synced
    exact ⟨before, beforeEq, rfl, rfl⟩
  · cases synced

/-- A submission whose order fits its columns, if it rests, keeps the mirror. -/
theorem Mirrors.submit {crypto : Crypto} {table : RestingOrders} (inv : BookInv book)
    (nextInv : BookInv next) (uncancelled : Uncancelled book)
    (mirrors : Mirrors crypto table book)
    (effect : SubmitEffect book args submission next shares)
    {binding : OrderSignatureBinding} (signed : verifySignatureOnly crypto binding = .ok ())
    (owner : binding.signerAddress = args.userId)
    (fits
      : restsAfter book (book.newOrder args)
        → (restingRow (book.newOrder args) binding).fits = true)
    : Mirrors crypto
        (table.execAll
          (submitStatements next binding submission.order submission.trades
            submission.stpCancelled)) next := by
  have row := submitStatements_row inv nextInv uncancelled effect binding table
  have ownRow := fun kept => mirrors.inserted inv effect fits kept
  refine ⟨fun orderId => ?_, fun orderId found stored => ?_⟩
  · rw [row, effect.lookup]
    split_ifs with own
    · obtain ⟨kept, rfl⟩ := own
      have ownId : submission.order.id = book.nextOrderId := by rw [effect.terms]; rfl
      rw [ownRow kept, Option.map_some, Option.map_some, ← ownId, restingRow_view]
    · cases shared : shareOf shares orderId with
      | none => exact mirrors.rows orderId
      | some share =>
          obtain ⟨present, rfl⟩ := shareOf_some shared
          exact mirrors.synced inv effect present
  · rw [row] at stored
    split_ifs at stored with own
    · obtain ⟨kept, rfl⟩ := own
      rw [ownRow kept] at stored
      rw [← Option.some.inj stored]
      have user : submission.order.userId = args.userId := by rw [effect.terms]; rfl
      exact ⟨signed, owner.trans user.symm⟩
    · cases shared : shareOf shares orderId with
      | none =>
          simp only [shared] at stored
          exact mirrors.verified orderId found stored
      | some share =>
          simp only [shared] at stored
          obtain ⟨before, beforeEq, bindingEq, userEq⟩ := syncMaker_owner stored
          have old := mirrors.verified orderId before beforeEq
          rw [RestingRow.Verified, bindingEq, userEq]
          exact old

end Submit

/-- Deleting the rows of the ids a book lost keeps the mirror. -/
theorem Mirrors.delete {crypto : Crypto} {table : RestingOrders} {book next : OrderBook}
    (mirrors : Mirrors crypto table book) {gone : List Nat}
    (others
      : ∀ orderId,
          next.getOrder orderId = if orderId ∈ gone then none else book.getOrder orderId)
    : Mirrors crypto (table.execAll (gone.map DbStatement.deleteRestingOrder)) next := by
  have row : ∀ orderId,
      (table.execAll (gone.map DbStatement.deleteRestingOrder)).get? orderId
        = if orderId ∈ gone then none else table.get? orderId := by
    intro orderId
    rw [get?_execAll]
    split_ifs with listed
    · refine @foldl_effect_repeat (.deleteRestingOrder orderId) _
        (fun statement member => ?_) ?_ (fun _ => rfl) _
      · obtain ⟨deleted, targets⟩ := List.mem_filter.mp member
        obtain ⟨target, _, rfl⟩ := List.mem_map.mp deleted
        have same : target = orderId := of_decide_eq_true targets
        rw [same]
      · exact List.ne_nil_of_mem (List.mem_filter.mpr
          ⟨List.mem_map_of_mem listed, by simp [DbStatement.target]⟩)
    · have empty : (gone.map DbStatement.deleteRestingOrder).filter
          (fun statement => statement.target = orderId) = [] := by
        refine List.filter_eq_nil_iff.mpr (fun statement member => ?_)
        obtain ⟨target, present, rfl⟩ := List.mem_map.mp member
        intro targets
        have same : target = orderId := of_decide_eq_true targets
        exact listed (same ▸ present)
      rw [empty]
      rfl
  refine ⟨fun orderId => ?_, fun orderId found stored => ?_⟩
  · rw [row, others]
    split_ifs
    · rfl
    · exact mirrors.rows orderId
  · rw [row] at stored
    split_ifs at stored
    exact mirrors.verified orderId found stored

-----------------------------------------------------------------------------------------
-- Requests
-----------------------------------------------------------------------------------------

/-- A binding the middleware has verified. -/
abbrev SignedBinding (crypto : Crypto) :=
  { binding : OrderSignatureBinding // verifySignatureOnly crypto binding = .ok () }

/-- The requests that change the book; orders and closes are signed by their client. -/
inductive ApiRequest (crypto : Crypto) where
  | submitOrder (binding : SignedBinding crypto) (request : SubmitOrderRequest)
    (clock : StpClock)
  | cancelOrder (user : Option AuthenticatedUser) (orderId : Nat)
  | cancelAllOrders (userId : Option String)
  | closePosition (user : Option AuthenticatedUser) (binding : SignedBinding crypto)
    (positionId : Nat) (clock : StpClock)

section Requests

variable {σ : Type} (perp : PerpClient σ) {crypto : Crypto}

/-- The state after one completed request. -/
def AppState.handle (state : AppState σ) : ApiRequest crypto → AppState σ
  | .submitOrder binding request clock =>
      (submitOrderHandler perp crypto (some binding.1) request clock state).2
  | .cancelOrder user orderId => (cancelOrderHandler user orderId state).2
  | .cancelAllOrders userId => (cancelAllOrdersHandler userId state).2
  | .closePosition user binding positionId clock =>
      (closePositionHandler perp crypto user (some binding.1) positionId clock state).2

def AppState.run (state : AppState σ) (requests : List (ApiRequest crypto)) : AppState σ :=
  requests.foldl (AppState.handle perp) state

/-- The engine request a submission of the API becomes. -/
def signedRequest (binding : OrderSignatureBinding) (args : SubmitArgs) : OrderRequest where
  authorization := .clientSigned binding
  args := args
  closePositionId := none

/-- The engine request a close of the API becomes. -/
def closeRequest (binding : OrderSignatureBinding) (caller : String) (closeSide : Side)
    (size : FP8) (positionId : Nat) : OrderRequest where
  authorization := .clientSigned binding
  args := closeArgs caller closeSide size 1
  closePositionId := some (UInt32.ofNat positionId)

/-- The condition under which a request keeps the mirror. An accepted order that will rest
fits the columns of its row; an accepted close finds the side it trades against empty.
-/
def MirrorSafe (state : AppState σ) : ApiRequest crypto → Prop
  | .submitOrder binding request clock =>
      ∀ args, state.isSequencer = true → parseSubmit request = .ok args
        → engineAccepts perp (signedRequest binding.1 args) clock state.engine state.enclave
        → restsAfter state.engine.book (state.engine.book.newOrder args)
        → (restingRow (state.engine.book.newOrder args) binding.1).fits
  | .closePosition (some user) binding positionId clock =>
      ∀ balance closeSide size,
        (perp.getBalance user.xrplAddress state.enclave).1 = .ok balance
        → closeTarget user.xrplAddress positionId balance = .ok (closeSide, size)
        → engineAccepts perp
            (closeRequest binding.1 user.xrplAddress closeSide size positionId) clock state.engine
            (perp.getBalance user.xrplAddress state.enclave).2
        → state.engine.book.levels closeSide.opposite = .empty
  | _ => True

/-- Every request of a run meets the condition in the state it finds. -/
def SafeRun (state : AppState σ) (requests : List (ApiRequest crypto)) : Prop :=
  Along (AppState.handle perp) (MirrorSafe perp) state requests

/-- The state of a run: the book is well formed and the table mirrors it. -/
structure MirrorInv (crypto : Crypto) (state : AppState σ) : Prop where
  book : BookInv state.engine.book
  uncancelled : Uncancelled state.engine.book
  mirrored : ∃ table, state.db = some table ∧ Mirrors crypto table state.engine.book

/-- Books with the same orders have the same mirrors. -/
theorem Mirrors.congr {table : RestingOrders} {book other : OrderBook}
    (mirrors : Mirrors crypto table book)
    (same : ∀ orderId, other.getOrder orderId = book.getOrder orderId)
    : Mirrors crypto table other :=
  ⟨fun orderId => by rw [mirrors.rows, same], mirrors.verified⟩

theorem MirrorInv.congr {state other : AppState σ} (inv : MirrorInv crypto state)
    (book : BookInv other.engine.book)
    (same : ∀ orderId, other.engine.book.getOrder orderId = state.engine.book.getOrder orderId)
    (db : other.db = state.db)
    : MirrorInv crypto other := by
  obtain ⟨_, uncancelled, table, stored, mirrors⟩ := inv
  refine ⟨book, fun orderId order found => ?_, table, db.trans stored, mirrors.congr same⟩
  exact uncancelled orderId order (same orderId ▸ found)

/-- A refused submission changes no resting order and writes nothing. -/
theorem MirrorInv.refused {state other : AppState σ} (inv : MirrorInv crypto state)
    (same : SameOrders state.engine.book other.engine.book) (db : other.db = state.db)
    : MirrorInv crypto other :=
  inv.congr (same.inv inv.book) same.getOrder db

/-- A submission whose statements the table can follow keeps the table a mirror of the book.
Witness: a refused one changes nothing, an accepted one writes each order it touched.
-/
theorem MirrorInv.submitOrder {state : AppState σ} (inv : MirrorInv crypto state)
    (binding : SignedBinding crypto) (request : SubmitOrderRequest) (clock : StpClock)
    (safe : MirrorSafe perp state (.submitOrder binding request clock))
    : MirrorInv crypto (state.handle perp (.submitOrder binding request clock)) := by
  obtain ⟨book, uncancelled, table, stored, mirrors⟩ := inv
  simp only [AppState.handle, submitOrderHandler]
  cases sequencer : state.isSequencer with
  | false => exact ⟨book, uncancelled, table, stored, mirrors⟩
  | true =>
      cases parsed : parseSubmit request with
      | error error => exact ⟨book, uncancelled, table, stored, mirrors⟩
      | ok args =>
          simp only [Bool.not_true, Bool.false_eq_true, if_false, TradingEngine.submitOrder]
          have accepts := safe args sequencer parsed
          rcases submitOrderInner_outcome perp crypto book (signedRequest binding.1 args) clock
            state.enclave with ⟨reason, failed, same⟩
            | ⟨attestedMs, submission, shares, failedFills, succeeded, owner, accepted, keeps,
              effect⟩
          · simp only [signedRequest] at failed same
            simp only [failed]
            exact MirrorInv.refused ⟨book, uncancelled, table, stored, mirrors⟩ same rfl
          · have clocked : BookInv (state.engine.book.setAttestedMs attestedMs) :=
              book.congr rfl rfl le_rfl
            have sameOrder : { submission.order with closePositionId := none }
                = submission.order := by
              rw [effect.terms]
              rfl
            have signer : binding.1.signerAddress = args.userId := by
              simp only [checkOwner, signedRequest] at owner
              by_contra apart
              simp [apart] at owner
            have fits := fun resting => accepts accepted resting
            have after := Mirrors.submit clocked keeps uncancelled (mirrors.congr (fun _ => rfl))
              effect binding.2 signer fits
            simp only [signedRequest, sameOrder] at succeeded keeps effect after
            simp only [succeeded, stored, Option.map_some]
            exact ⟨keeps, Uncancelled.submit clocked uncancelled effect, _, rfl, after⟩

theorem MirrorInv.cancelOrder {state : AppState σ} (inv : MirrorInv crypto state)
    (user : Option AuthenticatedUser) (orderId : Nat)
    : MirrorInv crypto (state.handle perp (.cancelOrder user orderId : ApiRequest crypto)) := by
  obtain ⟨book, uncancelled, table, stored, mirrors⟩ := inv
  simp only [AppState.handle, cancelOrderHandler]
  split_ifs
  · exact ⟨book, uncancelled, table, stored, mirrors⟩
  · have keeps := book.cancelOrder orderId
    have outcome := cancelOrder_outcome book orderId
    generalize state.engine.book.cancelOrder orderId = result at outcome keeps ⊢
    cases outcome with
    | missing _ => exact ⟨book, uncancelled, table, stored, mirrors⟩
    | @removed order next found others _ =>
        have isId : order.id = orderId := ((getOrder_eq_some_iff book).mp found).2
        have lost : ∀ other, next.getOrder other
            = if other ∈ [order.id] then none else state.engine.book.getOrder other := by
          intro other
          rw [others, isId]
          simp
        simp only [stored, Option.map_some]
        exact ⟨keeps, uncancelled.delete lost, _, rfl, mirrors.delete lost⟩

theorem MirrorInv.cancelAllOrders {state : AppState σ} (inv : MirrorInv crypto state)
    (userId : Option String)
    : MirrorInv crypto (state.handle perp (.cancelAllOrders userId : ApiRequest crypto)) := by
  obtain ⟨book, uncancelled, table, stored, mirrors⟩ := inv
  cases userId with
  | none => exact ⟨book, uncancelled, table, stored, mirrors⟩
  | some userId =>
      simp only [AppState.handle, cancelAllOrdersHandler, stored, Option.map_some]
      have lost := cancelAll_lookup book userId
      refine ⟨book.cancelAll userId, uncancelled.delete lost, _, rfl, ?_⟩
      have after := mirrors.delete lost
      rw [List.map_map] at after
      exact after

/-- A market order that finds its side empty takes nothing and never rests. -/
theorem SubmitEffect.idle {book next : OrderBook} {args : SubmitArgs} {submission : Submission}
    {shares : List Share} (effect : SubmitEffect book args submission next shares)
    (market : args.orderType = .market) (empty : book.levels args.side.opposite = .empty)
    (orderId : Nat)
    : next.getOrder orderId = book.getOrder orderId := by
  have none : shares = [] := by
    rcases effect.taken with ⟨nothing, _⟩ | taken
    · exact nothing
    · have side : (book.newOrder args).side = args.side := rfl
      rw [taken, takes, opposing, side, empty]
      cases args.side <;> rfl
  have gone : ¬ persists submission.order = true := by
    intro kept
    have resting := effect.resting kept
    have isMarket : (book.newOrder args).orderType = .market := market
    simp [restsAfter, isMarket] at resting
  rw [effect.lookup, if_neg (fun both => gone both.1), none]
  rfl

/-- What a close does to the book and the table once its terms are known. -/
theorem MirrorInv.close {state : AppState σ} (inv : MirrorInv crypto state)
    (binding : OrderSignatureBinding) (caller : String) (closeSide : Side) (size : FP8)
    (positionId : Nat) (clock : StpClock)
    (safe
      : engineAccepts perp (closeRequest binding caller closeSide size positionId) clock
          state.engine state.enclave
        → state.engine.book.levels closeSide.opposite = .empty)
    : MirrorInv crypto
        { state with
          engine :=
            (submitOrderInner perp crypto
              (closeRequest binding caller closeSide size positionId) clock state.engine
              state.enclave).engine
          enclave :=
            (submitOrderInner perp crypto
              (closeRequest binding caller closeSide size positionId) clock state.engine
              state.enclave).enclave } := by
  rcases submitOrderInner_outcome perp crypto inv.book
    (closeRequest binding caller closeSide size positionId) clock state.enclave with
    ⟨_, _, same⟩ | ⟨attestedMs, _, _, _, _, _, accepted, keeps, effect⟩
  · exact inv.refused same rfl
  · exact inv.congr keeps (effect.idle rfl (safe accepted)) rfl

theorem MirrorInv.closePosition {state : AppState σ} (inv : MirrorInv crypto state)
    (user : Option AuthenticatedUser) (binding : SignedBinding crypto) (positionId : Nat)
    (clock : StpClock) (safe : MirrorSafe perp state (.closePosition user binding positionId clock))
    : MirrorInv crypto (state.handle perp (.closePosition user binding positionId clock)) := by
  cases user with
  | none => exact inv
  | some user =>
      simp only [AppState.handle, closePositionHandler]
      have asked : MirrorInv crypto
          { state with enclave := (perp.getBalance user.xrplAddress state.enclave).2 } :=
        inv.congr inv.book (fun _ => rfl) rfl
      cases replied : (perp.getBalance user.xrplAddress state.enclave).1 with
      | error reason => exact asked
      | ok balance =>
          simp only
          cases target : closeTarget user.xrplAddress positionId balance with
          | error error => exact asked
          | ok terms =>
              have closed := asked.close perp binding.1 user.xrplAddress terms.1 terms.2 positionId
                clock (safe balance terms.1 terms.2 replied target)
              simp only [TradingEngine.submitCloseOrder]
              simp only [closeRequest] at closed
              split
              · exact closed
              · split_ifs
                · exact closed
                · exact closed

/-- One request that meets the condition keeps the mirror, by cases on the request. -/
theorem MirrorInv.handle {state : AppState σ} (inv : MirrorInv crypto state)
    (request : ApiRequest crypto) (safe : MirrorSafe perp state request)
    : MirrorInv crypto (state.handle perp request) := by
  cases request with
  | submitOrder binding request clock => exact inv.submitOrder perp binding request clock safe
  | cancelOrder user orderId => exact inv.cancelOrder perp user orderId
  | cancelAllOrders userId => exact inv.cancelAllOrders perp userId
  | closePosition user binding positionId clock =>
      exact inv.closePosition perp user binding positionId clock safe

/-- A run whose requests all meet the condition keeps the mirror. -/
theorem MirrorInv.run {state : AppState σ} (inv : MirrorInv crypto state)
    {requests : List (ApiRequest crypto)} (safe : SafeRun perp state requests)
    : MirrorInv crypto (state.run perp requests) :=
  Along.invariant (fun _ request inv safe => inv.handle perp request safe) safe inv

end Requests

end PerpDex
