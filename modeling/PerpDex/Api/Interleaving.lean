import PerpDex.Api.Statements
import PerpDex.Lib.Run
import PerpDex.OrderBook.Failover

/-! Submit and cancel handlers that overlap.
A handler holds the book lock for its match or cancel only; its statements follow one at a
time, so statements on one order can be issued in another order than its changes were made.
The table is right in the end if the last statement on each id still says what the book says.
-/

namespace PerpDex

open OrderBook

/-- A write to come: a statement whose values are fixed, or the sync of a maker that is
looked up in the book right before its statement is issued.
-/
inductive TableWrite where
  | fixed (statement : DbStatement)
  | sync (makerOrderId : Nat)

def TableWrite.target : TableWrite → Nat
  | .fixed statement => statement.target
  | .sync makerOrderId => makerOrderId

/-- The writes of a submission in program order. -/
def submitWrites (binding : OrderSignatureBinding) (submission : Submission)
    : List TableWrite :=
  (insertOwn submission.order binding).map .fixed
  ++ submission.trades.map (fun trade => .sync trade.makerOrderId)
  ++ submission.stpCancelled.map (fun entry => .fixed (syncDecrement entry))

/-- A request to one of the two handlers. What a submission reads from the enclave before
it locks the book is an input here.
-/
inductive HandlerRequest where
  | submitOrder (binding : OrderSignatureBinding) (available : FP8) (attestedMs : Nat)
    (args : SubmitArgs) (clock : StpClock)
  | cancelOrder (user : Option AuthenticatedUser) (orderId : Nat)

/-- Where a handler stands between two of its steps. -/
inductive Handler where
  | received (request : HandlerRequest)
  | cancelling (orderId : Nat)
  | writing (writes : List TableWrite)

/-- The writes a handler still has to issue. -/
def Handler.writes : Handler → List TableWrite
  | .writing writes => writes
  | _ => []

/-- Has the handler answered its request? -/
def Handler.done : Handler → Bool
  | .writing [] => true
  | _ => false

theorem Handler.done_iff {handler : Handler} : handler.done = true ↔ handler = .writing [] := by
  cases handler with
  | writing writes => cases writes <;> simp [Handler.done]
  | _ => simp [Handler.done]

/-- The shared state and every handler in flight. -/
structure World where
  book : OrderBook
  table : RestingOrders
  handlers : List Handler

def World.start (market : String) (requests : List HandlerRequest) : World where
  book := .new market
  table := .empty
  handlers := requests.map .received

/-- One step of a handler: a section under the book lock, or one statement. -/
def Handler.step (book : OrderBook) (table : RestingOrders)
    : Handler → OrderBook × RestingOrders × Handler
  | .received (.submitOrder binding available attestedMs args clock) =>
      match lockedSubmit (some available) attestedMs args clock book with
      | (.error _, book) => (book, table, .writing [])
      | (.ok submission, book) => (book, table, .writing (submitWrites binding submission))
  | .received (.cancelOrder user orderId) =>
      (book, table,
        if mayCancel user ((book.getOrder orderId).map Order.userId) then .cancelling orderId
        else .writing [])
  | .cancelling orderId =>
      match book.cancelOrder orderId with
      | (.error _, book) => (book, table, .writing [])
      | (.ok order, book) =>
          (book, table, .writing [.fixed (.deleteRestingOrder order.id)])
  | .writing [] => (book, table, .writing [])
  | .writing (.fixed statement :: rest) => (book, table.exec statement, .writing rest)
  | .writing (.sync makerOrderId :: rest) =>
      (book, table, .writing (.fixed (syncMaker book makerOrderId) :: rest))

/-- Let the handler at an index take its next step. -/
def World.step (world : World) (index : Nat) : World :=
  match world.handlers[index]? with
  | none => world
  | some handler =>
      let (book, table, next) := handler.step world.book world.table
      { book, table, handlers := world.handlers.set index next }

/-- The world after an interleaving, given as the indices of the handlers that step. -/
def World.run (world : World) (schedule : List Nat) : World :=
  schedule.foldl World.step world

/-- Every handler has issued its last statement. -/
def World.Finished (world : World) : Prop :=
  ∀ handler ∈ world.handlers, handler.done = true

-----------------------------------------------------------------------------------------
-- Conditions on a step
-----------------------------------------------------------------------------------------

/-- Is a write on the id still to come? -/
def outstanding (handlers : List Handler) (orderId : Nat) : Bool :=
  handlers.any (fun handler => handler.writes.any (fun write => write.target = orderId))

/-- The database accepts the statement. -/
def DbStatement.succeeds : DbStatement → Bool
  | .insertRestingOrder order binding => (restingRow order binding).fits
  | _ => true

/-- Does a statement leave its row as the book has the order? An insert or update carries
the filled amount the book has now; an update of a missing row of a gone order does nothing.
-/
def current (book : OrderBook) (table : RestingOrders) : DbStatement → Bool
  | .insertRestingOrder order _ =>
      (book.getOrder order.id).map Order.filled = some order.filled
  | .updateRestingOrderFilled orderId filled =>
      (book.getOrder orderId).map Order.filled = some filled
      || (book.getOrder orderId).isNone && (table.get? orderId).isNone
  | .deleteRestingOrder _ => true

/-- A condition on the statement a step issues, if it issues one, and on the handler that
is left with the rest of its writes.
-/
def World.issues (condition : DbStatement → Handler → Bool) (world : World) (index : Nat)
    : Bool :=
  match world.handlers[index]? with
  | some (.writing (.fixed statement :: rest)) => condition statement (.writing rest)
  | _ => true

/-- The statement issued succeeds. -/
def World.Succeeds (world : World) (index : Nat) : Prop :=
  world.issues (fun statement _ => statement.succeeds) index = true

/-- The statement issued is followed by another one on the same id that is already
outstanding, or is current.
-/
def World.Ordered (world : World) (index : Nat) : Prop :=
  world.issues
    (fun statement rest =>
      outstanding (world.handlers.set index rest) statement.target
      || current world.book world.table statement)
    index
  = true

instance (world : World) (index : Nat) : Decidable (world.Succeeds index) :=
  inferInstanceAs (Decidable (_ = true))

instance (world : World) (index : Nat) : Decidable (world.Ordered index) :=
  inferInstanceAs (Decidable (_ = true))

/-- A write some handler still has to issue. -/
def Pending (handlers : List Handler) (write : TableWrite) : Prop :=
  ∃ handler ∈ handlers, write ∈ handler.writes

theorem outstanding_iff {handlers : List Handler} {orderId : Nat}
    : outstanding handlers orderId = true
      ↔ ∃ write, Pending handlers write ∧ write.target = orderId := by
  simp only [outstanding, Pending, List.any_eq_true, decide_eq_true_eq]
  constructor
  · intro given
    rcases given with ⟨handler, member, write, listed, targets⟩
    exact ⟨write, ⟨handler, member, listed⟩, targets⟩
  · intro given
    rcases given with ⟨write, ⟨handler, member, listed⟩, targets⟩
    exact ⟨handler, member, write, listed, targets⟩

section Pending

variable {handlers : List Handler} {index : Nat} {handler next : Handler} {write : TableWrite}

/-- A pending write stays pending unless the handler that stepped held it. -/
theorem Pending.kept (located : handlers[index]? = some handler)
    (pending : Pending handlers write)
    : Pending (handlers.set index next) write ∨ write ∈ handler.writes := by
  obtain ⟨other, member, listed⟩ := pending
  obtain ⟨position, present⟩ := List.mem_iff_getElem?.mp member
  by_cases same : position = index
  · subst same
    rw [Option.some.inj (located.symm.trans present)]
    exact Or.inr listed
  · refine Or.inl ⟨other, List.mem_iff_getElem?.mpr ⟨position, ?_⟩, listed⟩
    rw [List.getElem?_set_ne (Ne.symm same), present]

theorem Pending.added (located : handlers[index]? = some handler)
    (listed : write ∈ next.writes)
    : Pending (handlers.set index next) write := by
  have inside : index < handlers.length := (List.getElem?_eq_some_iff.mp located).1
  exact ⟨next, List.mem_iff_getElem?.mpr ⟨index, List.getElem?_set_self inside⟩, listed⟩

/-- A write pending after a step belongs to the handler that stepped or was pending. -/
theorem Pending.origin (pending : Pending (handlers.set index next) write)
    : write ∈ next.writes ∨ Pending handlers write := by
  obtain ⟨other, member, listed⟩ := pending
  rcases List.mem_or_eq_of_mem_set member with old | rfl
  · exact Or.inr ⟨other, old, listed⟩
  · exact Or.inl listed

/-- A handler that has taken its first write up keeps the others pending. -/
theorem Pending.kept_rest {first : TableWrite} {rest : List TableWrite}
    (located : handlers[index]? = some (.writing (first :: rest)))
    (keeps : ∀ later ∈ rest, later ∈ next.writes) (pending : Pending handlers write)
    (other : write ≠ first)
    : Pending (handlers.set index next) write := by
  rcases pending.kept located with still | own
  · exact still
  · exact Pending.added located (keeps write (List.mem_of_ne_of_mem other own))

theorem Pending.of_writing {first : TableWrite} {rest : List TableWrite}
    (located : handlers[index]? = some (.writing (first :: rest))) (listed : write ∈ first :: rest)
    : Pending handlers write :=
  ⟨_, List.mem_iff_getElem?.mpr ⟨index, located⟩, listed⟩

/-- What a handler has left to write was pending before. -/
theorem Pending.of_rest {first : TableWrite} {rest : List TableWrite}
    (located : handlers[index]? = some (.writing (first :: rest)))
    (pending : Pending (handlers.set index (.writing rest)) write)
    : Pending handlers write := by
  rcases pending.origin with fresh | old
  · exact Pending.of_writing located (List.mem_cons_of_mem _ fresh)
  · exact old

end Pending

-----------------------------------------------------------------------------------------
-- The invariant
-----------------------------------------------------------------------------------------

/-- The row of an id carries the filled amount of the resting order, or neither exists. -/
def Settled (book : OrderBook) (table : RestingOrders) (orderId : Nat) : Prop :=
  (table.get? orderId).map RestingRow.filled = (book.getOrder orderId).map Order.filled

/-- A pending insert for an id. -/
def Unborn (handlers : List Handler) (orderId : Nat) : Prop :=
  ∃ order binding,
    Pending handlers (.fixed (.insertRestingOrder order binding)) ∧ order.id = orderId

/-- What holds between any two steps: an order without a row is still to be inserted, a
fixed delete is about an order that is gone, and an id without a pending write is settled.
-/
structure Consistent (world : World) : Prop where
  book : BookInv world.book
  uncancelled : Uncancelled world.book
  rows : ∀ orderId row, world.table.get? orderId = some row → orderId < world.book.nextOrderId
  targets : ∀ write, Pending world.handlers write → write.target < world.book.nextOrderId
  rowed
    : ∀ orderId order,
        world.book.getOrder orderId = some order
        → (world.table.get? orderId).isSome ∨ Unborn world.handlers orderId
  dead
    : ∀ orderId,
        Pending world.handlers (.fixed (.deleteRestingOrder orderId))
        → world.book.getOrder orderId = none
  settled
    : ∀ orderId,
        (∃ write, Pending world.handlers write ∧ write.target = orderId)
        ∨ Settled world.book world.table orderId

theorem Consistent.start (market : String) (requests : List HandlerRequest)
    : Consistent (World.start market requests) := by
  have idle : ∀ write, ¬ Pending (World.start market requests).handlers write := by
    rintro write ⟨handler, member, listed⟩
    obtain ⟨request, _, rfl⟩ := List.mem_map.mp member
    exact absurd listed List.not_mem_nil
  have empty : ∀ orderId, (World.start market requests).book.getOrder orderId = none :=
    fun orderId => getOrder_eq_none_iff.mpr (fun _ member => absurd member List.not_mem_nil)
  refine ⟨BookInv.new market, ?_, ?_, ?_, ?_, ?_, ?_⟩
  · intro orderId order found
    rw [empty] at found
    exact absurd found (by simp)
  · intro orderId row found
    exact absurd found (by simp [World.start])
  · exact fun write pending => absurd pending (idle write)
  · intro orderId order found
    rw [empty] at found
    exact absurd found (by simp)
  · exact fun orderId pending => absurd pending (idle _)
  · intro orderId
    refine Or.inr ?_
    rw [Settled, empty]
    simp [World.start]

section Steps

variable {world : World} {index : Nat} {handler : Handler}

/-- A change of the book under the lock keeps the invariant if the handler that made it
leaves with a write for every id it touched.
-/
theorem Consistent.locked (consistent : Consistent world)
    (located : world.handlers[index]? = some handler) (quiet : handler.writes = [])
    {book : OrderBook} {next : Handler} (inv : BookInv book) (uncancelled : Uncancelled book)
    (grows : world.book.nextOrderId ≤ book.nextOrderId)
    (targets : ∀ write ∈ next.writes, write.target < book.nextOrderId)
    (touched
      : ∀ orderId,
          book.getOrder orderId = world.book.getOrder orderId
          ∨ ∃ write ∈ next.writes, write.target = orderId)
    (born
      : ∀ orderId order,
          book.getOrder orderId = some order
          → (∃ old, world.book.getOrder orderId = some old)
            ∨ ∃ inserted binding,
                .fixed (.insertRestingOrder inserted binding) ∈ next.writes
                ∧ inserted.id = orderId)
    (removed
      : ∀ orderId, .fixed (.deleteRestingOrder orderId) ∈ next.writes
        → book.getOrder orderId = none)
    (buried
      : ∀ orderId, orderId < world.book.nextOrderId → world.book.getOrder orderId = none
        → book.getOrder orderId = none)
    : Consistent
        { book, table := world.table, handlers := world.handlers.set index next } := by
  have kept : ∀ {write}, Pending world.handlers write
      → Pending (world.handlers.set index next) write := by
    intro write pending
    rcases pending.kept located with still | own
    · exact still
    · rw [quiet] at own
      exact absurd own List.not_mem_nil
  constructor
  · exact inv
  · exact uncancelled
  · exact fun orderId row found => (consistent.rows orderId row found).trans_le grows
  · intro write pending
    rcases pending.origin with fresh | old
    · exact targets write fresh
    · exact (consistent.targets write old).trans_le grows
  · intro orderId order found
    rcases born orderId order found with ⟨old, before⟩ | ⟨inserted, binding, listed, isId⟩
    · rcases consistent.rowed orderId old before with row | ⟨order, binding, pending, isId⟩
      · exact Or.inl row
      · exact Or.inr ⟨order, binding, kept pending, isId⟩
    · exact Or.inr ⟨inserted, binding, Pending.added located listed, isId⟩
  · intro orderId pending
    rcases pending.origin with fresh | old
    · exact removed orderId fresh
    · exact buried orderId (consistent.targets _ old) (consistent.dead orderId old)
  · intro orderId
    rcases touched orderId with same | ⟨write, listed, isTarget⟩
    · rcases consistent.settled orderId with ⟨write, pending, isTarget⟩ | settled
      · exact Or.inl ⟨write, kept pending, isTarget⟩
      · refine Or.inr ?_
        rw [Settled, same]
        exact settled
    · exact Or.inl ⟨write, Pending.added located listed, isTarget⟩

/-- A step that leaves the resting orders alone and adds no write. -/
theorem Consistent.unchanged (consistent : Consistent world)
    (located : world.handlers[index]? = some handler) (quiet : handler.writes = [])
    {book : OrderBook} {next : Handler} (silent : next.writes = [])
    (same : SameOrders world.book book)
    : Consistent
        { book, table := world.table, handlers := world.handlers.set index next } := by
  refine consistent.locked located quiet (same.inv consistent.book) ?_ same.counter.ge ?_ ?_ ?_
    ?_ ?_
  · intro orderId order found
    rw [same.getOrder] at found
    exact consistent.uncancelled orderId order found
  · simp [silent]
  · exact fun orderId => Or.inl (same.getOrder orderId)
  · intro orderId order found
    rw [same.getOrder] at found
    exact Or.inl ⟨order, found⟩
  · simp [silent]
  · intro orderId _ gone
    rw [same.getOrder, gone]

/-- The order of the request is inserted if it stays. -/
theorem mem_insertOwn {order : Order} {binding : OrderSignatureBinding} {write : TableWrite}
    : write ∈ (insertOwn order binding).map TableWrite.fixed
      ↔ persists order ∧ write = .fixed (.insertRestingOrder order binding) := by
  simp only [insertOwn]
  split_ifs with kept
  · simp [kept]
  · simp [kept]

/-- Each maker of another user that gave up a share is synced. -/
theorem SubmitEffect.mem_tradeSyncs {book next : OrderBook} {args : SubmitArgs}
    {submission : Submission} {shares : List Share}
    (effect : SubmitEffect book args submission next shares) {write : TableWrite}
    : write ∈ submission.trades.map (fun trade => .sync trade.makerOrderId)
      ↔ ∃ share ∈ shares, share.1.userId ≠ args.userId ∧ write = .sync share.1.id := by
  have mapped : submission.trades.map (fun trade => TableWrite.sync trade.makerOrderId)
      = (foreignShares args.userId shares).map (fun share => .sync share.1.id) := by
    have ids := congrArg (List.map TableWrite.sync) effect.makers
    rw [List.map_map, List.map_map] at ids
    exact ids
  rw [mapped, List.mem_map]
  constructor
  · rintro ⟨share, member, rfl⟩
    obtain ⟨present, foreign⟩ := List.mem_filter.mp member
    exact ⟨share, present, by simpa using foreign, rfl⟩
  · rintro ⟨share, present, foreign, rfl⟩
    exact ⟨share, List.mem_filter.mpr ⟨present, by simpa using foreign⟩, rfl⟩

/-- Each maker of the same user that gave up a share is written as it stands. -/
theorem SubmitEffect.mem_decrements {book next : OrderBook} {args : SubmitArgs}
    {submission : Submission} {shares : List Share} (inv : BookInv book)
    (uncancelled : Uncancelled book) (effect : SubmitEffect book args submission next shares)
    {write : TableWrite}
    : write ∈ submission.stpCancelled.map (fun entry => .fixed (syncDecrement entry))
      ↔ ∃ share ∈ shares,
          share.1.userId = args.userId ∧ write = .fixed (syncMaker next share.1.id) := by
  rw [effect.decrements, List.map_map, List.mem_map]
  constructor
  · rintro ⟨share, member, rfl⟩
    obtain ⟨present, mine⟩ := List.mem_filter.mp member
    have mine : share.1.userId = args.userId := by simpa using mine
    refine ⟨share, present, mine, ?_⟩
    rw [← syncDecrement_eq inv uncancelled effect present mine]
    rfl
  · rintro ⟨share, present, mine, rfl⟩
    refine ⟨share, List.mem_filter.mpr ⟨present, by simpa using mine⟩, ?_⟩
    rw [← syncDecrement_eq inv uncancelled effect present mine]
    rfl

/-- A maker that gave up a share is written, and by a delete only if it is gone. -/
theorem SubmitEffect.mem_submitWrites {book next : OrderBook} {args : SubmitArgs}
    {submission : Submission} {shares : List Share} (inv : BookInv book)
    (uncancelled : Uncancelled book) (effect : SubmitEffect book args submission next shares)
    (binding : OrderSignatureBinding) (write : TableWrite)
    : write ∈ submitWrites binding submission
      ↔ (persists submission.order
          ∧ write = .fixed (.insertRestingOrder submission.order binding))
        ∨ (∃ share ∈ shares, share.1.userId ≠ args.userId ∧ write = .sync share.1.id)
        ∨ ∃ share ∈ shares,
            share.1.userId = args.userId ∧ write = .fixed (syncMaker next share.1.id) := by
  rw [submitWrites, List.mem_append, List.mem_append, mem_insertOwn, effect.mem_tradeSyncs,
    effect.mem_decrements inv uncancelled, or_assoc]

/-- A sync deletes only what does not rest. -/
theorem syncMaker_eq_delete {book : OrderBook} (inv : BookInv book) {orderId makerOrderId : Nat}
    (deleted : .deleteRestingOrder orderId = syncMaker book makerOrderId)
    : book.getOrder orderId = none := by
  have isId : makerOrderId = orderId := by
    have targets := congrArg DbStatement.target deleted
    rw [syncMaker_target book inv] at targets
    exact targets.symm
  rw [isId, syncMaker] at deleted
  cases found : book.getOrder orderId with
  | none => rfl
  | some order => simp [found] at deleted

section SubmitWrites

variable {book next : OrderBook} {args : SubmitArgs} {submission : Submission}
  {shares : List Share}

theorem SubmitEffect.own_id (effect : SubmitEffect book args submission next shares)
    : submission.order.id = book.nextOrderId := by
  rw [effect.terms]
  rfl

/-- Only ids that have been issued are written. -/
theorem SubmitEffect.target_lt (inv : BookInv book) (nextInv : BookInv next)
    (uncancelled : Uncancelled book) (effect : SubmitEffect book args submission next shares)
    {binding : OrderSignatureBinding} {write : TableWrite}
    (listed : write ∈ submitWrites binding submission)
    : write.target < next.nextOrderId := by
  have counter : next.nextOrderId = book.nextOrderId + 1 := effect.counter
  have old : ∀ share ∈ shares, share.1.id < book.nextOrderId :=
    fun share present => inv.issued _ (effect.share_resting present)
  rcases (effect.mem_submitWrites inv uncancelled binding write).mp listed with
    ⟨_, rfl⟩ | ⟨share, present, _, rfl⟩ | ⟨share, present, _, rfl⟩
  · have ownId := effect.own_id
    show submission.order.id < next.nextOrderId
    omega
  · have before := old share present
    show share.1.id < next.nextOrderId
    omega
  · have before := old share present
    show (syncMaker next share.1.id).target < next.nextOrderId
    rw [syncMaker_target next nextInv]
    omega

/-- Where the book changes, there is a write. -/
theorem SubmitEffect.changed_written (inv : BookInv book) (nextInv : BookInv next)
    (uncancelled : Uncancelled book) (effect : SubmitEffect book args submission next shares)
    (binding : OrderSignatureBinding) (orderId : Nat)
    : next.getOrder orderId = book.getOrder orderId
      ∨ ∃ write ∈ submitWrites binding submission, write.target = orderId := by
  have writes := effect.mem_submitWrites inv uncancelled binding
  rw [effect.lookup]
  split_ifs with own
  · exact Or.inr ⟨_, (writes _).mpr (Or.inl ⟨own.1, rfl⟩), effect.own_id.trans own.2.symm⟩
  · cases shared : shareOf shares orderId with
    | none => exact Or.inl rfl
    | some share =>
        obtain ⟨present, rfl⟩ := shareOf_some shared
        by_cases mine : share.1.userId = args.userId
        · exact Or.inr ⟨_, (writes _).mpr (Or.inr (Or.inr ⟨share, present, mine, rfl⟩)),
            syncMaker_target next nextInv _⟩
        · exact Or.inr ⟨_, (writes _).mpr (Or.inr (Or.inl ⟨share, present, mine, rfl⟩)), rfl⟩

/-- What rests afterwards rested before or is inserted. -/
theorem SubmitEffect.born (inv : BookInv book) (uncancelled : Uncancelled book)
    (effect : SubmitEffect book args submission next shares) (binding : OrderSignatureBinding)
    {orderId : Nat} {order : Order} (found : next.getOrder orderId = some order)
    : (∃ old, book.getOrder orderId = some old)
      ∨ ∃ inserted binding',
          .fixed (.insertRestingOrder inserted binding') ∈ submitWrites binding submission
          ∧ inserted.id = orderId := by
  rw [effect.lookup] at found
  split_ifs at found with own
  · exact Or.inr ⟨_, _, (effect.mem_submitWrites inv uncancelled binding _).mpr
      (Or.inl ⟨own.1, rfl⟩), effect.own_id.trans own.2.symm⟩
  · cases shared : shareOf shares orderId with
    | none =>
        rw [shared] at found
        exact Or.inl ⟨order, found⟩
    | some share =>
        obtain ⟨present, rfl⟩ := shareOf_some shared
        exact Or.inl ⟨share.1, (getOrder_eq_some_iff inv).mpr ⟨effect.share_resting present, rfl⟩⟩

/-- What is deleted does not rest afterwards. -/
theorem SubmitEffect.removed (inv : BookInv book) (nextInv : BookInv next)
    (uncancelled : Uncancelled book) (effect : SubmitEffect book args submission next shares)
    {binding : OrderSignatureBinding} {orderId : Nat}
    (listed : .fixed (.deleteRestingOrder orderId) ∈ submitWrites binding submission)
    : next.getOrder orderId = none := by
  rcases (effect.mem_submitWrites inv uncancelled binding _).mp listed with
    ⟨_, insert⟩ | ⟨_, _, _, sync⟩ | ⟨share, _, _, fixed⟩
  · simp at insert
  · simp at sync
  · exact syncMaker_eq_delete nextInv (TableWrite.fixed.inj fixed)

/-- An old id under which nothing rests stays so. -/
theorem SubmitEffect.buried (effect : SubmitEffect book args submission next shares)
    {orderId : Nat} (issued : orderId < book.nextOrderId) (gone : book.getOrder orderId = none)
    : next.getOrder orderId = none := by
  have unshared : shareOf shares orderId = none := by
    refine List.find?_eq_none.mpr (fun share present isId => ?_)
    exact getOrder_eq_none_iff.mp gone _ (effect.share_resting present) (of_decide_eq_true isId)
  rw [effect.lookup, if_neg (fun own => issued.ne own.2), unshared]
  exact gone

end SubmitWrites

theorem Consistent.submitted (consistent : Consistent world)
    {binding : OrderSignatureBinding} {available : FP8} {attestedMs : Nat} {args : SubmitArgs}
    {clock : StpClock}
    (located
      : world.handlers[index]?
        = some (.received (.submitOrder binding available attestedMs args clock)))
    : Consistent (world.step index) := by
  simp only [World.step, located, Handler.step]
  have outcome := lockedSubmit_outcome consistent.book (some available) attestedMs args clock
  generalize lockedSubmit (some available) attestedMs args clock world.book = result at outcome ⊢
  cases outcome with
  | refused reason same => exact consistent.unchanged located rfl rfl same
  | @matched submission next shares _ inv effect =>
      have clocked : BookInv (world.book.setAttestedMs attestedMs) :=
        consistent.book.congr rfl rfl le_rfl
      have uncancelled := consistent.uncancelled
      exact consistent.locked located rfl inv (Uncancelled.submit clocked uncancelled effect)
        (effect.counter.ge.trans' (Nat.le_succ _))
        (fun _ listed => effect.target_lt clocked inv uncancelled listed)
        (fun orderId => effect.changed_written clocked inv uncancelled binding orderId)
        (fun _ _ found => effect.born clocked uncancelled binding found)
        (fun _ listed => effect.removed clocked inv uncancelled listed)
        (fun _ issued gone => effect.buried issued gone)

theorem Consistent.cancelled (consistent : Consistent world) {orderId : Nat}
    (located : world.handlers[index]? = some (.cancelling orderId))
    : Consistent (world.step index) := by
  simp only [World.step, located, Handler.step]
  have keeps := consistent.book.cancelOrder orderId
  have outcome := cancelOrder_outcome consistent.book orderId
  generalize world.book.cancelOrder orderId = result at outcome keeps ⊢
  cases outcome with
  | missing _ => exact consistent.unchanged located rfl rfl ⟨rfl, rfl, rfl, rfl⟩
  | @removed order next found others counter =>
      obtain ⟨resting, isId⟩ := (getOrder_eq_some_iff consistent.book).mp found
      have uncancelled : Uncancelled next := by
        refine consistent.uncancelled.delete (fun other => ?_ : ∀ other, _ = if other ∈ [orderId]
          then none else world.book.getOrder other)
        rw [others]
        simp
      refine consistent.locked located rfl keeps uncancelled counter.ge ?_ ?_ ?_ ?_ ?_
      · intro write listed
        rw [List.mem_singleton.mp listed, counter]
        exact consistent.book.issued order resting
      · intro other
        by_cases same : other = orderId
        · exact Or.inr ⟨_, List.mem_singleton_self _, isId.trans same.symm⟩
        · exact Or.inl (by rw [others, if_neg same])
      · intro other kept present
        rw [others] at present
        split_ifs at present
        exact Or.inl ⟨kept, present⟩
      · intro other listed
        have same : other = order.id :=
          DbStatement.deleteRestingOrder.inj
            (TableWrite.fixed.inj (List.mem_singleton.mp listed))
        rw [others, if_pos (same.trans isId)]
      · intro other _ gone
        rw [others, gone]
        simp

/-- Looking a maker up turns its sync into the statement for the same id. -/
theorem Consistent.looked_up (consistent : Consistent world) {makerOrderId : Nat}
    {rest : List TableWrite}
    (located : world.handlers[index]? = some (.writing (.sync makerOrderId :: rest)))
    : Consistent (world.step index) := by
  simp only [World.step, located, Handler.step]
  generalize nextDef : Handler.writing (.fixed (syncMaker world.book makerOrderId) :: rest) = next
  have nextWrites : next.writes = .fixed (syncMaker world.book makerOrderId) :: rest := by
    rw [← nextDef]
    rfl
  have sameTarget : (syncMaker world.book makerOrderId).target = makerOrderId :=
    syncMaker_target world.book consistent.book makerOrderId
  have keeps : ∀ later ∈ rest, later ∈ next.writes := by
    intro later member
    rw [nextWrites]
    exact List.mem_cons_of_mem _ member
  constructor
  · exact consistent.book
  · exact consistent.uncancelled
  · exact consistent.rows
  · intro write pending
    rcases pending.origin with fresh | old
    · rw [nextWrites] at fresh
      rcases List.mem_cons.mp fresh with rfl | later
      · have bound := consistent.targets _ (Pending.of_writing located List.mem_cons_self)
        exact sameTarget.trans_lt bound
      · exact consistent.targets write
          (Pending.of_writing located (List.mem_cons_of_mem _ later))
    · exact consistent.targets write old
  · intro orderId order found
    rcases consistent.rowed orderId order found with row | ⟨inserted, binding, pending, isId⟩
    · exact Or.inl row
    · exact Or.inr ⟨inserted, binding, pending.kept_rest located keeps (by simp), isId⟩
  · intro orderId pending
    rcases pending.origin with fresh | old
    · rw [nextWrites] at fresh
      rcases List.mem_cons.mp fresh with fixed | later
      · exact syncMaker_eq_delete consistent.book (TableWrite.fixed.inj fixed)
      · exact consistent.dead orderId
          (Pending.of_writing located (List.mem_cons_of_mem _ later))
    · exact consistent.dead orderId old
  · intro orderId
    rcases consistent.settled orderId with ⟨write, pending, isTarget⟩ | settled
    · by_cases own : write = .sync makerOrderId
      · refine Or.inl ⟨_, Pending.added located (nextWrites ▸ List.mem_cons_self), ?_⟩
        rw [own] at isTarget
        exact sameTarget.trans isTarget
      · exact Or.inl ⟨write, pending.kept_rest located keeps own, isTarget⟩
    · exact Or.inr settled

/-- Another insert than the statement is pending for its id. -/
def OtherInsert (handlers : List Handler) (statement : DbStatement) : Prop :=
  ∃ order binding,
    Pending handlers (.fixed (.insertRestingOrder order binding))
    ∧ TableWrite.fixed (.insertRestingOrder order binding) ≠ .fixed statement
    ∧ order.id = statement.target

/-- A statement that succeeds leaves a row for an order that rests, unless the row is still
to be inserted.
-/
theorem Consistent.effect_rowed (consistent : Consistent world) {statement : DbStatement}
    (popped : Pending world.handlers (.fixed statement)) (succeeds : statement.succeeds = true)
    {order : Order} (found : world.book.getOrder statement.target = some order)
    : (statement.effect (world.table.get? statement.target)).isSome
      ∨ OtherInsert world.handlers statement := by
  cases statement with
  | insertRestingOrder inserted binding =>
      have fits : (restingRow inserted binding).fits = true := succeeds
      refine Or.inl ?_
      simp only [DbStatement.effect, fits, if_true]
      cases world.table.get? _ <;> rfl
  | updateRestingOrderFilled target filled =>
      rcases consistent.rowed target order found with row | ⟨other, binding, pending, isId⟩
      · exact Or.inl (by simpa [DbStatement.effect, DbStatement.target] using row)
      · exact Or.inr ⟨other, binding, pending, by simp, isId⟩
  | deleteRestingOrder target =>
      have gone := consistent.dead target popped
      exact absurd (gone.symm.trans found) (by simp)

/-- A current statement that succeeds settles its id, unless the row is still to be inserted. -/
theorem Consistent.effect_settled (consistent : Consistent world) {statement : DbStatement}
    (popped : Pending world.handlers (.fixed statement)) (succeeds : statement.succeeds = true)
    (fresh : current world.book world.table statement = true)
    : (statement.effect (world.table.get? statement.target)).map RestingRow.filled
          = (world.book.getOrder statement.target).map Order.filled
      ∨ OtherInsert world.handlers statement := by
  cases statement with
  | insertRestingOrder inserted binding =>
      have fits : (restingRow inserted binding).fits = true := succeeds
      simp only [current, decide_eq_true_eq] at fresh
      refine Or.inl ?_
      rw [show (DbStatement.insertRestingOrder inserted binding).target = inserted.id from rfl,
        fresh]
      simp only [DbStatement.effect, fits, if_true]
      cases world.table.get? _ <;> rfl
  | updateRestingOrderFilled target filled =>
      simp only [current, Bool.or_eq_true, Bool.and_eq_true, decide_eq_true_eq,
        Option.isNone_iff_eq_none] at fresh
      rw [show (DbStatement.updateRestingOrderFilled target filled).target = target from rfl]
      rcases fresh with amount | ⟨gone, rowless⟩
      · obtain ⟨order, found, _⟩ := Option.map_eq_some_iff.mp amount
        rcases consistent.rowed target order found with row | ⟨other, binding, pending, isId⟩
        · obtain ⟨row, stored⟩ := Option.isSome_iff_exists.mp row
          refine Or.inl ?_
          rw [amount, stored]
          rfl
        · exact Or.inr ⟨other, binding, pending, by simp, isId⟩
      · refine Or.inl ?_
        rw [gone, rowless]
        rfl
  | deleteRestingOrder target =>
      refine Or.inl ?_
      have gone := consistent.dead target popped
      rw [show (DbStatement.deleteRestingOrder target).target = target from rfl, gone]
      rfl

/-- A statement that succeeds, and is current unless another on its id follows, keeps the
invariant.
-/
theorem Consistent.issued (consistent : Consistent world) {statement : DbStatement}
    {rest : List TableWrite}
    (located : world.handlers[index]? = some (.writing (.fixed statement :: rest)))
    (succeeds : statement.succeeds = true)
    (ordered
      : outstanding (world.handlers.set index (.writing rest)) statement.target = true
        ∨ current world.book world.table statement = true)
    : Consistent (world.step index) := by
  simp only [World.step, located, Handler.step]
  have popped : Pending world.handlers (.fixed statement) :=
    Pending.of_writing located List.mem_cons_self
  have kept : ∀ {write}, Pending world.handlers write → write ≠ .fixed statement
      → Pending (world.handlers.set index (.writing rest)) write :=
    fun pending other => pending.kept_rest located (fun _ member => member) other
  constructor
  · exact consistent.book
  · exact consistent.uncancelled
  · intro orderId row found
    by_cases same : orderId = statement.target
    · rw [same]
      exact consistent.targets _ popped
    · rw [get?_exec, if_neg same] at found
      exact consistent.rows orderId row found
  · exact fun write pending => consistent.targets write (pending.of_rest located)
  · intro orderId order found
    rw [get?_exec]
    split_ifs with same
    · subst same
      rcases consistent.effect_rowed popped succeeds found with
        row | ⟨other, binding, pending, differs, isId⟩
      · exact Or.inl row
      · exact Or.inr ⟨other, binding, kept pending differs, isId⟩
    · rcases consistent.rowed orderId order found with row | ⟨other, binding, pending, isId⟩
      · exact Or.inl row
      · refine Or.inr ⟨other, binding, kept pending (fun own => same ?_), isId⟩
        rw [← TableWrite.fixed.inj own]
        exact isId.symm
  · exact fun orderId pending => consistent.dead orderId (pending.of_rest located)
  · intro orderId
    by_cases same : orderId = statement.target
    · subst same
      rcases ordered with follows | fresh
      · exact Or.inl (outstanding_iff.mp follows)
      · rw [Settled, get?_exec, if_pos rfl]
        rcases consistent.effect_settled popped succeeds fresh with
          settled | ⟨other, binding, pending, differs, isId⟩
        · exact Or.inr settled
        · exact Or.inl ⟨_, kept pending differs, isId⟩
    · rw [Settled, get?_exec, if_neg same]
      rcases consistent.settled orderId with ⟨write, pending, isTarget⟩ | settled
      · refine Or.inl ⟨write, kept pending (fun own => same ?_), isTarget⟩
        rw [← isTarget, own]
        rfl
      · exact Or.inr settled

/-- Every step that issues a successful statement in order keeps the invariant; steps under
the lock always do.
-/
theorem Consistent.step (consistent : Consistent world) (index : Nat)
    (safe : world.Succeeds index ∧ world.Ordered index)
    : Consistent (world.step index) := by
  obtain ⟨succeeds, ordered⟩ := safe
  cases located : world.handlers[index]? with
  | none =>
      simp only [World.step, located]
      exact consistent
  | some handler =>
      cases handler with
      | received request =>
          cases request with
          | submitOrder binding available attestedMs args clock =>
              exact consistent.submitted located
          | cancelOrder user orderId =>
              simp only [World.step, located, Handler.step]
              refine consistent.unchanged located rfl ?_ ⟨rfl, rfl, rfl, rfl⟩
              split_ifs
              · rfl
              · rfl
      | cancelling orderId => exact consistent.cancelled located
      | writing writes =>
          cases writes with
          | nil =>
              simp only [World.step, located, Handler.step]
              exact consistent.unchanged located rfl rfl ⟨rfl, rfl, rfl, rfl⟩
          | cons write rest =>
              cases write with
              | sync makerOrderId => exact consistent.looked_up located
              | fixed statement =>
                  simp only [World.Succeeds, World.Ordered, World.issues, located,
                    Bool.or_eq_true] at succeeds ordered
                  exact consistent.issued located succeeds ordered

end Steps

/-- In every interleaving whose statements succeed and are issued in order, once all
handlers have finished a row exists exactly for the orders that rest, with their filled
amount.
Witness: an id without a pending write is settled between any two steps.
-/
theorem interleaved_table_settles (market : String) (requests : List HandlerRequest)
    (schedule : List Nat)
    (succeeds : Along World.step World.Succeeds (World.start market requests) schedule)
    (ordered : Along World.step World.Ordered (World.start market requests) schedule)
    (finished : ((World.start market requests).run schedule).Finished) (orderId : Nat)
    : (((World.start market requests).run schedule).table.get? orderId).map RestingRow.filled
      = (((World.start market requests).run schedule).book.getOrder orderId).map
          Order.filled := by
  have consistent : Consistent ((World.start market requests).run schedule) :=
    Along.invariant (fun _ index consistent safe => consistent.step index safe)
      (succeeds.and ordered) (Consistent.start market requests)
  rcases consistent.settled orderId with ⟨write, ⟨handler, member, listed⟩, _⟩ | settled
  · have done := finished handler member
    rw [Handler.done_iff.mp done] at listed
    exact absurd listed List.not_mem_nil
  · exact settled

/-- The maker sells one unit and the taker buys it. -/
def crossingRequests : List HandlerRequest :=
  [.submitOrder sellOneBinding (FP8.ofRaw 100_000_000_000) 1 (unitOrder makerAddress .short)
      ⟨0, 0⟩,
    .submitOrder buyOneBinding (FP8.ofRaw 100_000_000_000) 1 (unitOrder takerAddress .long)
      ⟨0, 0⟩]

/-- The taker takes the maker's order before the maker has inserted its row, but deletes the
row afterwards.
-/
theorem interleaved_table_settles_crossing
    : Along World.step World.Succeeds (World.start "XRP-USD-PERP" crossingRequests)
        [0, 1, 0, 1, 1]
      ∧ Along World.step World.Ordered (World.start "XRP-USD-PERP" crossingRequests)
          [0, 1, 0, 1, 1]
      ∧ ((World.start "XRP-USD-PERP" crossingRequests).run [0, 1, 0, 1, 1]).Finished
      ∧ (((World.start "XRP-USD-PERP" crossingRequests).run [0, 1, 0, 1, 1]).table.get?
            1).map RestingRow.filled
          = (((World.start "XRP-USD-PERP" crossingRequests).run [0, 1, 0, 1, 1]).book.getOrder
              1).map Order.filled := by
  have succeeds : Along World.step World.Succeeds
      (World.start "XRP-USD-PERP" crossingRequests) [0, 1, 0, 1, 1] := by decide +kernel
  have ordered : Along World.step World.Ordered
      (World.start "XRP-USD-PERP" crossingRequests) [0, 1, 0, 1, 1] := by decide +kernel
  have finished : ((World.start "XRP-USD-PERP" crossingRequests).run
      [0, 1, 0, 1, 1]).Finished := by
    unfold World.Finished
    decide +kernel
  exact ⟨succeeds, ordered, finished,
    interleaved_table_settles "XRP-USD-PERP" crossingRequests [0, 1, 0, 1, 1] succeeds ordered
      finished 1⟩

/-- The taker deletes the row of the order it took before the maker inserts it: every
statement succeeds, yet the row outlives the order.
-/
theorem insert_after_delete_resurrects_row
    : Along World.step World.Succeeds (World.start "XRP-USD-PERP" crossingRequests)
        [0, 1, 1, 1, 0]
      ∧ ((World.start "XRP-USD-PERP" crossingRequests).run [0, 1, 1, 1, 0]).Finished
      ∧ (((World.start "XRP-USD-PERP" crossingRequests).run [0, 1, 1, 1, 0]).table.get?
            1).isSome
      ∧ ((World.start "XRP-USD-PERP" crossingRequests).run [0, 1, 1, 1, 0]).book.getOrder 1
          = none := by
  unfold World.Finished
  decide +kernel

end PerpDex
