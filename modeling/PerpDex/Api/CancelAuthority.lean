import PerpDex.Api.Interleaving

/-! Whose orders a cancel removes when handlers overlap.
A cancel looks the owner up in one section under the book lock and removes the order in
another. An id that nobody holds passes the lookup, so an order that takes the id between
the two sections is removed whoever placed it.
-/

namespace PerpDex

open OrderBook

/-- Handlers that meet the book which a run of requests has left. -/
def World.serving (market : String) (ops : List BookOp) (table : RestingOrders)
    (requests : List HandlerRequest)
    : World where
  book := (OrderBook.new market).run ops
  table
  handlers := requests.map .received

/-- If the handler at the index serves a cancel request, its next step removes no order of
another user than the one it is authenticated as.
-/
def World.CancelsOwn (requests : List HandlerRequest) (world : World) (index : Nat) : Prop :=
  ∀ user orderId,
    requests[index]? = some (.cancelOrder (some user) orderId) →
    ∀ order ∈ world.book.restingOrders,
      order ∉ (world.step index).book.restingOrders → order.userId = user.xrplAddress

/-- A submission that comes to rest does not take an id for which the cancel of another user
has already passed its lookup.
-/
def World.Unclaimed (requests : List HandlerRequest) (world : World) (index : Nat) : Prop :=
  match world.handlers[index]? with
  | some (.received (.submitOrder _ available attestedMs args clock)) =>
      ((lockedSubmit (some available) attestedMs args clock world.book).2.getOrder
          world.book.nextOrderId).isSome →
      ∀ (other : Nat) (user : AuthenticatedUser),
        world.handlers[other]? = some (.cancelling world.book.nextOrderId) →
        requests[other]? = some (.cancelOrder (some user) world.book.nextOrderId) →
        args.userId = user.xrplAddress
  | _ => True

/-- A handler keeps to the request it was started for. -/
structure World.Tracked (requests : List HandlerRequest) (world : World) : Prop where
  book : BookInv world.book
  received
    : ∀ (index : Nat) (request : HandlerRequest),
        world.handlers[index]? = some (.received request) → requests[index]? = some request
  cancelling
    : ∀ (index orderId : Nat),
        world.handlers[index]? = some (.cancelling orderId)
        → ∃ user, requests[index]? = some (.cancelOrder user orderId)

/-- What a cancel that has passed its lookup is about to remove belongs to its user. -/
def World.Owned (requests : List HandlerRequest) (world : World) : Prop :=
  ∀ (index : Nat) (user : AuthenticatedUser) (orderId : Nat) (order : Order),
    world.handlers[index]? = some (.cancelling orderId) →
    requests[index]? = some (.cancelOrder (some user) orderId) →
    world.book.getOrder orderId = some order → order.userId = user.xrplAddress

theorem shareLeft_userId {userId : String} {share : Share} {order : Order}
    (left : shareLeft userId share = some order)
    : order.userId = share.1.userId := by
  rw [shareLeft_terms left]

/-- An order found after a submission is the submitted one, or was there before under the
same owner.
-/
theorem lockedSubmit_owner {book : OrderBook} (inv : BookInv book) {available : Option FP8}
    {attestedMs : Nat} {args : SubmitArgs} {clock : StpClock} {orderId : Nat} {order : Order}
    (found
      : (lockedSubmit available attestedMs args clock book).2.getOrder orderId = some order)
    : (orderId = book.nextOrderId ∧ order.userId = args.userId)
      ∨ ∃ old, book.getOrder orderId = some old ∧ old.userId = order.userId := by
  have outcome := lockedSubmit_outcome inv available attestedMs args clock
  generalize lockedSubmit available attestedMs args clock book = result at outcome found
  cases outcome with
  | refused reason same =>
      rw [same.getOrder] at found
      exact Or.inr ⟨order, found, rfl⟩
  | @matched submission next shares _ _ effect =>
      have clocked : BookInv (book.setAttestedMs attestedMs) := inv.congr rfl rfl le_rfl
      rw [effect.lookup] at found
      split_ifs at found with own
      · refine Or.inl ⟨own.2, ?_⟩
        rw [← Option.some.inj found, effect.terms]
        rfl
      · refine Or.inr ?_
        cases shared : shareOf shares orderId with
        | none =>
            rw [shared] at found
            exact ⟨order, found, rfl⟩
        | some share =>
            rw [shared] at found
            obtain ⟨present, rfl⟩ := shareOf_some shared
            exact ⟨share.1, (getOrder_eq_some_iff clocked).mpr
              ⟨effect.share_resting present, rfl⟩, (shareLeft_userId found).symm⟩

theorem BookInv.lockedSubmit {book : OrderBook} (inv : BookInv book) (available : Option FP8)
    (attestedMs : Nat) (args : SubmitArgs) (clock : StpClock)
    : BookInv (lockedSubmit available attestedMs args clock book).2 := by
  have outcome := lockedSubmit_outcome inv available attestedMs args clock
  generalize PerpDex.lockedSubmit available attestedMs args clock book = result at outcome
  cases outcome with
  | refused _ same => exact same.inv inv
  | matched _ nextInv _ => exact nextInv

/-- An order found after a cancel was there before. -/
theorem cancelOrder_found {book : OrderBook} (inv : BookInv book) {cancelled orderId : Nat}
    {order : Order} (found : (book.cancelOrder cancelled).2.getOrder orderId = some order)
    : book.getOrder orderId = some order := by
  have outcome := cancelOrder_outcome inv cancelled
  generalize book.cancelOrder cancelled = result at outcome found
  cases outcome with
  | missing _ => exact found
  | removed _ others _ =>
      rw [others] at found
      split_ifs at found
      exact found

section Steps

variable {requests : List HandlerRequest} {world : World} {index : Nat}

theorem World.step_eq {handler : Handler} (located : world.handlers[index]? = some handler)
    : world.step index
      = { book := (handler.step world.book world.table).1
          table := (handler.step world.book world.table).2.1
          handlers :=
            world.handlers.set index (handler.step world.book world.table).2.2 } := by
  rw [World.step, located]

/-- Where the handlers stand after a step: one has moved on, the others have not. -/
theorem World.handlers_step {handler found : Handler} {other : Nat}
    (located : world.handlers[index]? = some handler)
    (after : (world.step index).handlers[other]? = some found)
    : (other = index ∧ found = (handler.step world.book world.table).2.2)
      ∨ (other ≠ index ∧ world.handlers[other]? = some found) := by
  obtain ⟨inside, _⟩ := List.getElem?_eq_some_iff.mp located
  rw [World.step_eq located] at after
  by_cases same : other = index
  · rw [same, List.getElem?_set_self inside] at after
    exact Or.inl ⟨same, (Option.some.inj after).symm⟩
  · rw [List.getElem?_set_ne (Ne.symm same)] at after
    exact Or.inr ⟨same, after⟩

/-- No handler goes back to its request, and only a lookup leads to a cancel. -/
theorem Handler.step_next (handler : Handler) (book : OrderBook) (table : RestingOrders)
    : (∃ writes, (handler.step book table).2.2 = .writing writes)
      ∨ ∃ user orderId,
          handler = .received (.cancelOrder user orderId)
          ∧ mayCancel user ((book.getOrder orderId).map Order.userId) = true
          ∧ (handler.step book table).2.2 = .cancelling orderId := by
  cases handler with
  | received request =>
      cases request with
      | submitOrder binding available attestedMs args clock =>
          simp only [Handler.step]
          split
          · exact Or.inl ⟨_, rfl⟩
          · exact Or.inl ⟨_, rfl⟩
      | cancelOrder user orderId =>
          simp only [Handler.step]
          split_ifs with passes
          · exact Or.inr ⟨user, orderId, rfl, passes, rfl⟩
          · exact Or.inl ⟨_, rfl⟩
  | cancelling orderId =>
      simp only [Handler.step]
      split
      · exact Or.inl ⟨_, rfl⟩
      · exact Or.inl ⟨_, rfl⟩
  | writing writes =>
      cases writes with
      | nil => exact Or.inl ⟨_, rfl⟩
      | cons write rest =>
          cases write with
          | fixed statement => exact Or.inl ⟨_, rfl⟩
          | sync makerOrderId => exact Or.inl ⟨_, rfl⟩

/-- The book a step leaves. -/
theorem Handler.step_book (handler : Handler) (book : OrderBook) (table : RestingOrders)
    : (handler.step book table).1
      = match handler with
        | .received (.submitOrder _ available attestedMs args clock) =>
            (lockedSubmit (some available) attestedMs args clock book).2
        | .cancelling orderId => (book.cancelOrder orderId).2
        | _ => book := by
  cases handler with
  | received request =>
      cases request with
      | submitOrder binding available attestedMs args clock =>
          simp only [Handler.step]
          split <;> simp [*]
      | cancelOrder user orderId => rfl
  | cancelling orderId =>
      simp only [Handler.step]
      split <;> simp [*]
  | writing writes =>
      cases writes with
      | nil => rfl
      | cons write rest => cases write <;> rfl

theorem World.Tracked.step (tracked : world.Tracked requests) (index : Nat)
    : (world.step index).Tracked requests := by
  cases located : world.handlers[index]? with
  | none =>
      rw [World.step, located]
      exact tracked
  | some handler =>
      refine ⟨?_, ?_, ?_⟩
      · rw [World.step_eq located]
        show BookInv (handler.step world.book world.table).1
        rw [handler.step_book]
        split
        · exact tracked.book.lockedSubmit _ _ _ _
        · exact tracked.book.cancelOrder _
        · exact tracked.book
      · intro other request after
        rcases World.handlers_step located after with ⟨_, moved⟩ | ⟨_, kept⟩
        · rcases handler.step_next world.book world.table with
            ⟨writes, next⟩ | ⟨user, orderId, _, _, next⟩
          · cases moved.trans next
          · cases moved.trans next
        · exact tracked.received other request kept
      · intro other orderId after
        rcases World.handlers_step located after with ⟨rfl, moved⟩ | ⟨_, kept⟩
        · rcases handler.step_next world.book world.table with
            ⟨writes, next⟩ | ⟨user, looked, isCancel, _, next⟩
          · cases moved.trans next
          · obtain rfl := Handler.cancelling.inj (moved.trans next)
            exact ⟨user, tracked.received other _ (isCancel ▸ located)⟩
        · exact tracked.cancelling other orderId kept

/-- A step that finds only orders that were there before keeps open cancels owned. -/
theorem World.Owned.thinned {handler : Handler} (tracked : world.Tracked requests)
    (owned : world.Owned requests) (located : world.handlers[index]? = some handler)
    (thins
      : ∀ orderId order,
          (handler.step world.book world.table).1.getOrder orderId = some order
          → world.book.getOrder orderId = some order)
    : (world.step index).Owned requests := by
  intro other user orderId order after requested found
  have before : world.book.getOrder orderId = some order := by
    rw [World.step_eq located] at found
    exact thins orderId order found
  rcases World.handlers_step located after with ⟨rfl, moved⟩ | ⟨_, kept⟩
  · rcases handler.step_next world.book world.table with
      ⟨writes, next⟩ | ⟨asker, looked, isCancel, passes, next⟩
    · cases moved.trans next
    · obtain rfl := Handler.cancelling.inj (moved.trans next)
      have request := tracked.received other _ (isCancel ▸ located)
      have asks : asker = some user := by
        have same := Option.some.inj (request.symm.trans requested)
        exact (HandlerRequest.cancelOrder.inj same).1
      rw [asks, before] at passes
      simpa [mayCancel] using passes
  · exact owned other user orderId order kept requested before

/-- A submission keeps open cancels owned exactly if it takes no id that is claimed. -/
theorem World.Owned.submitted {binding : OrderSignatureBinding} {available : FP8}
    {attestedMs : Nat} {args : SubmitArgs} {clock : StpClock}
    (tracked : world.Tracked requests) (owned : world.Owned requests)
    (located
      : world.handlers[index]?
        = some (.received (.submitOrder binding available attestedMs args clock)))
    : (world.step index).Owned requests ↔ world.Unclaimed requests index := by
  have book : (world.step index).book
      = (lockedSubmit (some available) attestedMs args clock world.book).2 := by
    rw [World.step_eq located]
    exact Handler.step_book _ _ _
  have unissued : world.book.getOrder world.book.nextOrderId = none :=
    getOrder_unissued tracked.book le_rfl
  have others : ∀ {other orderId : Nat},
      (world.step index).handlers[other]? = some (.cancelling orderId)
      ↔ world.handlers[other]? = some (.cancelling orderId) := by
    intro other orderId
    constructor
    · intro after
      rcases World.handlers_step located after with ⟨_, moved⟩ | ⟨_, kept⟩
      · rcases Handler.step_next _ world.book world.table with
          ⟨writes, next⟩ | ⟨user, looked, isCancel, _, _⟩
        · cases moved.trans next
        · simp at isCancel
      · exact kept
    · intro before
      have apart : other ≠ index := by
        intro same
        rw [same, located] at before
        simp at before
      rw [World.step_eq located]
      exact (List.getElem?_set_ne (Ne.symm apart)).trans before
  simp only [World.Unclaimed, located]
  constructor
  · intro ownedAfter rests other user open_ requested
    obtain ⟨order, found⟩ := Option.isSome_iff_exists.mp rests
    have belongs : order.userId = user.xrplAddress :=
      ownedAfter other user _ order (others.mpr open_) requested (book ▸ found)
    rcases lockedSubmit_owner tracked.book found with ⟨_, own⟩ | ⟨old, before, _⟩
    · exact own.symm.trans belongs
    · exact absurd (unissued.symm.trans before) (by simp)
  · intro unclaimed other user orderId order after requested found
    rw [book] at found
    rcases lockedSubmit_owner tracked.book found with ⟨rfl, own⟩ | ⟨old, before, same⟩
    · rw [own]
      exact unclaimed (Option.isSome_iff_exists.mpr ⟨order, found⟩) other user
        (others.mp after) requested
    · rw [← same]
      exact owned other user orderId old (others.mp after) requested before

/-- Open cancels stay owned exactly over the steps that meet the condition. -/
theorem World.Owned.step_iff (tracked : world.Tracked requests)
    (owned : world.Owned requests) (index : Nat)
    : (world.step index).Owned requests ↔ world.Unclaimed requests index := by
  cases located : world.handlers[index]? with
  | none =>
      simp only [World.step, World.Unclaimed, located]
      exact iff_true_intro owned
  | some handler =>
      have quiet : ((∀ orderId order,
            (handler.step world.book world.table).1.getOrder orderId = some order
            → world.book.getOrder orderId = some order)
          → (world.Unclaimed requests index ↔ True)
          → ((world.step index).Owned requests ↔ world.Unclaimed requests index)) := by
        intro thins free
        rw [free]
        exact iff_true_intro (World.Owned.thinned tracked owned located thins)
      cases handler with
      | received request =>
          cases request with
          | submitOrder binding available attestedMs args clock =>
              exact World.Owned.submitted tracked owned located
          | cancelOrder user orderId =>
              refine quiet (fun _ _ found => ?_) (by simp [World.Unclaimed, located])
              rw [Handler.step_book] at found
              exact found
      | cancelling orderId =>
          refine quiet (fun _ _ found => ?_) (by simp [World.Unclaimed, located])
          rw [Handler.step_book] at found
          exact cancelOrder_found tracked.book found
      | writing writes =>
          refine quiet (fun _ _ found => ?_) (by simp [World.Unclaimed, located])
          rw [Handler.step_book] at found
          exact found

/-- Whichever handler steps next, cancels remove own orders only: the open ones are owned. -/
theorem World.Tracked.cancelsOwn_iff (tracked : world.Tracked requests)
    : (∀ index, world.CancelsOwn requests index) ↔ world.Owned requests := by
  constructor
  · intro own index user orderId order located requested found
    obtain ⟨resting, _⟩ := (getOrder_eq_some_iff tracked.book).mp found
    refine own index user orderId requested order resting (fun kept => ?_)
    rw [World.step_eq located, Handler.step_book] at kept
    have outcome := cancelOrder_outcome tracked.book orderId
    have keeps := tracked.book.cancelOrder orderId
    simp only at kept
    generalize world.book.cancelOrder orderId = result at outcome keeps kept
    cases outcome with
    | missing unknown => exact absurd (unknown.symm.trans found) (by simp)
    | removed present others _ =>
        have gone := others orderId
        rw [if_pos rfl] at gone
        exact getOrder_eq_none_iff.mp gone order kept
          ((getOrder_eq_some_iff tracked.book).mp found).2
  · intro owned index user orderId requested order resting gone
    cases located : world.handlers[index]? with
    | none =>
        rw [World.step, located] at gone
        exact absurd resting gone
    | some handler =>
        rw [World.step_eq located, Handler.step_book] at gone
        cases handler with
        | received request =>
            have same := tracked.received index request located
            rw [Option.some.inj (same.symm.trans requested)] at gone
            exact absurd resting gone
        | cancelling open_ =>
            obtain ⟨asker, same⟩ := tracked.cancelling index open_ located
            obtain ⟨_, rfl⟩ :=
              HandlerRequest.cancelOrder.inj (Option.some.inj (same.symm.trans requested))
            have keeps := tracked.book.cancelOrder open_
            have outcome := cancelOrder_outcome tracked.book open_
            simp only at gone
            generalize world.book.cancelOrder open_ = result at outcome keeps gone
            cases outcome with
            | missing _ => exact absurd resting gone
            | removed present others _ =>
                by_cases target : order.id = open_
                · have found := (getOrder_eq_some_iff tracked.book).mpr ⟨resting, target⟩
                  exact owned index user open_ order located requested found
                · have found := others order.id
                  rw [if_neg target,
                    (getOrder_eq_some_iff tracked.book).mpr ⟨resting, rfl⟩] at found
                  exact absurd ((getOrder_eq_some_iff keeps).mp found).1 gone
        | writing writes => exact absurd resting gone

end Steps

theorem World.tracked_serving (market : String) (ops : List BookOp) (table : RestingOrders)
    (requests : List HandlerRequest)
    : (World.serving market ops table requests).Tracked requests := by
  refine ⟨BookInv.run (BookInv.new market) ops, ?_, ?_⟩
  · intro index request located
    simpa [World.serving, List.getElem?_map] using located
  · intro index orderId located
    simp [World.serving, List.getElem?_map] at located

theorem World.owned_serving (market : String) (ops : List BookOp) (table : RestingOrders)
    (requests : List HandlerRequest)
    : (World.serving market ops table requests).Owned requests := by
  intro index user orderId order located
  simp [World.serving, List.getElem?_map] at located

/-- At no point of an interleaving can a cancel remove the order of another user, exactly if
no submission of the interleaving comes to rest under an id that the cancel of another user
has already been let through for.
Witness: the orders under the ids of open cancels belong to the users who cancel them.
-/
theorem cancel_authority_iff (market : String) (ops : List BookOp) (table : RestingOrders)
    (requests : List HandlerRequest) (schedule : List Nat)
    : (∀ front, front <+: schedule → ∀ index,
        ((World.serving market ops table requests).run front).CancelsOwn requests index)
      ↔ Along World.step (World.Unclaimed requests)
          (World.serving market ops table requests) schedule := by
  have exactStep : ∀ (world : World) (index : Nat),
      world.Tracked requests ∧ world.Owned requests →
      ((world.step index).Tracked requests ∧ (world.step index).Owned requests
        ↔ world.Unclaimed requests index) := by
    intro world index guarded
    rw [← World.Owned.step_iff guarded.1 guarded.2 index]
    exact ⟨fun after => after.2, fun owned => ⟨guarded.1.step index, owned⟩⟩
  have initial := World.tracked_serving market ops table requests
  rw [← Along.states_iff exactStep ⟨initial, World.owned_serving market ops table requests⟩]
  have tracked : ∀ front,
      ((World.serving market ops table requests).run front).Tracked requests :=
    run_invariant (World.Tracked requests) (fun _ index given => given.step index) initial
  constructor
  · intro own front isFront
    exact ⟨tracked front, (tracked front).cancelsOwn_iff.mp (own front isFront)⟩
  · intro guarded front isFront
    exact (tracked front).cancelsOwn_iff.mpr (guarded front isFront).2

/-- The taker cancels order 1 before it exists and the maker submits it. -/
def claimingRequests : List HandlerRequest :=
  [.cancelOrder (some ⟨takerAddress⟩) 1,
    .submitOrder sellOneBinding (FP8.ofRaw 100_000_000_000) 1 (unitOrder makerAddress .short)
      ⟨0, 0⟩]

/-- The lookup, the submission, the removal: the taker's cancel removes the maker's order. -/
theorem cancel_removes_foreign_order
    : ¬ ((World.serving "XRP-USD-PERP" [] .empty claimingRequests).run [0, 1]).CancelsOwn
        claimingRequests 0 := by
  intro own
  generalize worldDef : (World.serving "XRP-USD-PERP" [] .empty claimingRequests).run [0, 1]
    = world at own
  have resting : world.book.restingOrders.any (fun order => order.userId = makerAddress)
      = true := by
    rw [← worldDef]
    decide +kernel
  have removed : (world.step 0).book.restingOrders.isEmpty = true := by
    rw [← worldDef]
    decide +kernel
  obtain ⟨order, member, isMaker⟩ := List.any_eq_true.mp resting
  have gone : order ∉ (world.step 0).book.restingOrders := by
    rw [List.isEmpty_iff.mp removed]
    exact List.not_mem_nil
  have isTaker : order.userId = takerAddress := own ⟨takerAddress⟩ 1 rfl order member gone
  have isMaker : order.userId = makerAddress := of_decide_eq_true isMaker
  exact absurd (isMaker.symm.trans isTaker) (by decide)

end PerpDex
