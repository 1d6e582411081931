import PerpDex.OrderBook.Failover
import PerpDex.OrderBook.Quantities
import PerpDex.Trading.Outcome

/-! Open interest in an enclave that is a table of positions.
Opening adds to one side, closing removes a whole position. The two legs of an opening fill
add the same amount to both sides; a closing order removes its position with the first fill
already, so the sides stay in balance only if others fill all of it or none.
-/

namespace PerpDex

open OrderBook

structure Position where
  id : Nat
  userId : String
  side : Side
  size : Int
deriving DecidableEq

/-- Positions under ids of their own, all below the next one. -/
structure PositionTable where
  positions : List Position
  nextId : Nat
  fresh : ∀ position ∈ positions, position.id < nextId
  distinct : (positions.map Position.id).Nodup

/-- The total size on one side. -/
def sideTotal (side : Side) (positions : List Position) : Int :=
  ((positions.filter (fun position => position.side = side)).map Position.size).sum

def PositionTable.total (table : PositionTable) (side : Side) : Int :=
  sideTotal side table.positions

theorem sideTotal_cons (side : Side) (position : Position) (rest : List Position)
    : sideTotal side (position :: rest)
      = (if position.side = side then position.size else 0) + sideTotal side rest := by
  simp only [sideTotal, List.filter_cons, decide_eq_true_eq]
  split_ifs
  · simp
  · simp

theorem sideTotal_perm {side : Side} {left right : List Position} (perm : left.Perm right)
    : sideTotal side left = sideTotal side right :=
  ((perm.filter _).map _).sum_eq

namespace PositionTable

/-- Open a position under the next id. -/
def openPosition (table : PositionTable) (userId : String) (side : Side) (size : Int)
    : PositionTable where
  positions := ⟨table.nextId, userId, side, size⟩ :: table.positions
  nextId := table.nextId + 1
  fresh := by
    intro position member
    rcases List.mem_cons.mp member with rfl | old
    · exact Nat.lt_succ_self _
    · exact (table.fresh position old).trans (Nat.lt_succ_self _)
  distinct := by
    rw [List.map_cons, List.nodup_cons]
    refine ⟨fun member => ?_, table.distinct⟩
    obtain ⟨position, old, same⟩ := List.mem_map.mp member
    exact (table.fresh position old).ne same

/-- Remove a position from the table. -/
def remove (table : PositionTable) (position : Position) : PositionTable where
  positions := table.positions.erase position
  nextId := table.nextId
  fresh := fun other member => table.fresh other (List.mem_of_mem_erase member)
  distinct := table.distinct.sublist (List.erase_sublist.map _)

/-- Close a user's position; there may be none under the id. -/
def closePosition (table : PositionTable) (userId : String) (positionId : Nat)
    : Option PositionTable :=
  (table.positions.find?
    (fun position => position.id = positionId && position.userId = userId)).map table.remove

/-- No position has the id, and none will get it. -/
def Gone (table : PositionTable) (positionId : Nat) : Prop :=
  positionId < table.nextId ∧ ∀ position ∈ table.positions, position.id ≠ positionId

theorem total_openPosition (table : PositionTable) (userId : String) (side other : Side)
    (size : Int)
    : (table.openPosition userId side size).total other
      = table.total other + if side = other then size else 0 := by
  rw [total, openPosition, sideTotal_cons, total, add_comm]

theorem total_remove {table : PositionTable} {position : Position}
    (member : position ∈ table.positions) (side : Side)
    : (table.remove position).total side
      = table.total side - if position.side = side then position.size else 0 := by
  have perm := List.perm_cons_erase member
  rw [total, total, sideTotal_perm perm, sideTotal_cons, remove]
  ring

theorem gone_remove {table : PositionTable} {position : Position}
    (member : position ∈ table.positions)
    : (table.remove position).Gone position.id := by
  refine ⟨table.fresh position member, fun other otherMember same => ?_⟩
  have distinct := ((List.perm_cons_erase member).map Position.id).nodup_iff.mp table.distinct
  rw [List.map_cons, List.nodup_cons] at distinct
  exact distinct.1 (List.mem_map.mpr ⟨other, otherMember, same⟩)

theorem Gone.openPosition {table : PositionTable} {positionId : Nat}
    (gone : table.Gone positionId) (userId : String) (side : Side) (size : Int)
    : (table.openPosition userId side size).Gone positionId := by
  refine ⟨gone.1.trans (Nat.lt_succ_self _), fun position member => ?_⟩
  rcases List.mem_cons.mp member with rfl | old
  · exact gone.1.ne'
  · exact gone.2 position old

theorem Gone.closePosition {table : PositionTable} {positionId : Nat}
    (gone : table.Gone positionId) (userId : String)
    : table.closePosition userId positionId = none := by
  rw [PositionTable.closePosition, Option.map_eq_none_iff, List.find?_eq_none]
  intro position member
  simp [gone.2 position member]

/-- The position under an id is found. -/
theorem closePosition_mem {table : PositionTable} {position : Position}
    (member : position ∈ table.positions)
    : table.closePosition position.userId position.id = some (table.remove position) := by
  have found : table.positions.find?
      (fun other => other.id = position.id && other.userId = position.userId)
      = some position := by
    cases search : table.positions.find?
        (fun other => other.id = position.id && other.userId = position.userId) with
    | none =>
        have missing := List.find?_eq_none.mp search position member
        simp at missing
    | some other =>
        have hit := List.find?_some search
        simp only [Bool.and_eq_true, decide_eq_true_eq] at hit
        rw [List.inj_on_of_nodup_map table.distinct (List.mem_of_find?_eq_some search) member
          hit.1]
  rw [closePosition, found]
  rfl

end PositionTable

/-- The enclave as a table of positions; what it answers about balances and time is left
open. Every call it can carry out succeeds.
-/
def tablePerp (getBalance : String → PositionTable → Except String Json)
    (attestedClockStatus : PositionTable → Except String Json) : PerpClient PositionTable where
  getBalance := fun userId table => (getBalance userId table, table)
  attestedClockStatus := fun table => (attestedClockStatus table, table)
  call := fun call table =>
    match call with
    | .openPosition userId side size _ _ =>
        match FP8.fromStr size with
        | .ok size =>
            (.ok (.object [("status", .string "success")]),
              table.openPosition userId (if side = "long" then .long else .short) size.raw)
        | .error _ => (.error "invalid size", table)
    | .closePosition userId positionId _ =>
        match table.closePosition userId positionId with
        | some next => (.ok (.object [("status", .string "success")]), next)
        | none => (.error "position not found", table)

theorem tradedSize_cons (trade : Trade) (rest : List Trade)
    : tradedSize (trade :: rest) = trade.size.raw + tradedSize rest := by
  simp [tradedSize]

section Settlement

variable (getBalance : String → PositionTable → Except String Json)
  (attestedClockStatus : PositionTable → Except String Json)

/-- A side survives being sent as text. -/
theorem side_of_text (side : Side)
    : (if side.toString = "long" then Side.long else .short) = side := by
  cases side <;> simp [Side.toString]

theorem makerCall_table (leverage : UInt32) (trade : Trade) (table : PositionTable)
    : ((tablePerp getBalance attestedClockStatus).call (makerCall leverage trade) table).2
      = table.openPosition trade.makerUserId trade.takerSide.opposite trade.size.raw := by
  simp only [tablePerp, makerCall, FP8.fromStr_display, side_of_text]

theorem openCall_table (leverage : UInt32) (trade : Trade) (table : PositionTable)
    : ((tablePerp getBalance attestedClockStatus).call (takerCall none leverage trade) table).2
      = table.openPosition trade.takerUserId trade.takerSide trade.size.raw := by
  simp only [tablePerp, takerCall, FP8.fromStr_display, side_of_text]

theorem settleTrades_cons {σ : Type} (perp : PerpClient σ) (closePositionId : Option UInt32)
    (leverage : UInt32) (trade : Trade) (rest : List Trade) (enclave : σ)
    : (settleTrades perp closePositionId leverage (trade :: rest) enclave).2
      = (settleTrades perp closePositionId leverage rest
          (perp.call (makerCall leverage trade)
            (perp.call (takerCall closePositionId leverage trade) enclave).2).2).2 :=
  rfl

/-- Opening fills add what was traded to both sides, by induction over the fills. -/
theorem settleTrades_opens (leverage : UInt32) (trades : List Trade) (table : PositionTable)
    (side : Side)
    : (settleTrades (tablePerp getBalance attestedClockStatus) none leverage trades table).2.total
        side
      = table.total side + tradedSize trades := by
  induction trades generalizing table with
  | nil => simp [settleTrades, tradedSize]
  | cons trade rest ih =>
      rw [settleTrades_cons, ih, makerCall_table, openCall_table,
        PositionTable.total_openPosition, PositionTable.total_openPosition, tradedSize_cons]
      cases side <;> cases trade.takerSide <;> simp [Side.opposite] <;> ring

/-- Once the position is gone, a closing fill only opens the maker's leg. -/
theorem settleTrades_gone {positionId : UInt32} {closeSide : Side} (leverage : UInt32)
    {trades : List Trade} (sides : ∀ trade ∈ trades, trade.takerSide = closeSide)
    {table : PositionTable} (gone : table.Gone positionId.toNat) (side : Side)
    : (settleTrades (tablePerp getBalance attestedClockStatus) (some positionId) leverage trades
        table).2.total side
      = table.total side + if closeSide.opposite = side then tradedSize trades else 0 := by
  induction trades generalizing table with
  | nil => simp [settleTrades, tradedSize]
  | cons trade rest ih =>
      have failed : ((tablePerp getBalance attestedClockStatus).call
          (takerCall (some positionId) leverage trade) table).2 = table := by
        simp only [tablePerp, takerCall, gone.closePosition]
      rw [settleTrades_cons, failed, makerCall_table,
        ih (fun other member => sides other (List.mem_cons_of_mem _ member))
          (gone.openPosition _ _ _),
        PositionTable.total_openPosition, tradedSize_cons, sides trade List.mem_cons_self]
      split_ifs <;> ring

/-- The first closing fill removes the whole position. -/
theorem settleTrades_closes {positionId : UInt32} {closeSide : Side} {userId : String}
    (leverage : UInt32) {trades : List Trade} (traded : trades ≠ [])
    (sides : ∀ trade ∈ trades, trade.takerSide = closeSide)
    (takers : ∀ trade ∈ trades, trade.takerUserId = userId) {table : PositionTable}
    {size : Int} (held : ⟨positionId.toNat, userId, closeSide.opposite, size⟩ ∈ table.positions)
    (side : Side)
    : (settleTrades (tablePerp getBalance attestedClockStatus) (some positionId) leverage trades
        table).2.total side
      = table.total side + if closeSide.opposite = side then tradedSize trades - size else 0 := by
  obtain ⟨trade, rest, rfl⟩ := List.exists_cons_of_ne_nil traded
  have closed : ((tablePerp getBalance attestedClockStatus).call
      (takerCall (some positionId) leverage trade) table).2
      = table.remove ⟨positionId.toNat, userId, closeSide.opposite, size⟩ := by
    have found := PositionTable.closePosition_mem held
    simp only at found
    simp only [tablePerp, takerCall, takers trade List.mem_cons_self, found]
  have gone := PositionTable.gone_remove held
  rw [settleTrades_cons, closed, makerCall_table,
    settleTrades_gone getBalance attestedClockStatus leverage
      (fun other member => sides other (List.mem_cons_of_mem _ member)) (gone.openPosition _ _ _),
    PositionTable.total_openPosition, PositionTable.total_remove held, tradedSize_cons,
    sides trade List.mem_cons_self]
  split_ifs <;> ring

end Settlement

-----------------------------------------------------------------------------------------
-- Balance
-----------------------------------------------------------------------------------------

/-- Both sides changed by the same amount. -/
def Balanced (before after : PositionTable) : Prop :=
  after.total .long - before.total .long = after.total .short - before.total .short

/-- An order as it is submitted to the engine. -/
inductive SubmittedOrder where
  | opens (args : SubmitArgs)
  | closes (userId : String) (closeSide : Side) (size : FP8) (leverage positionId : UInt32)

def SubmittedOrder.request (authorization : OrderAuthorization) : SubmittedOrder → OrderRequest
  | .opens args => ⟨authorization, args, none⟩
  | .closes userId closeSide size leverage positionId =>
      ⟨authorization, closeArgs userId closeSide size leverage, some positionId⟩

/-- A closing order is for the whole of a position its owner holds. -/
def SubmittedOrder.Holds (table : PositionTable) : SubmittedOrder → Prop
  | .opens _ => True
  | .closes userId closeSide size _ positionId =>
      ⟨positionId.toNat, userId, closeSide.opposite, size.raw⟩ ∈ table.positions

/-- How much of an order other users' makers fill, read off the book before it. -/
def othersTake (book : OrderBook) (args : SubmitArgs) : Int :=
  total (foreignShares args.userId (takes book (book.newOrder args)))

section Balance

variable (getBalance : String → PositionTable → Except String Json)
  (attestedClockStatus : PositionTable → Except String Json) (crypto : Crypto)

/-- The condition under which an order keeps the sides in balance: it opens, it is refused,
or other users' makers in its reach fill all of it or nothing.
-/
def SubmittedOrder.KeepsBalance (authorization : OrderAuthorization) (clock : StpClock)
    (engine : TradingEngine) (table : PositionTable) (order : SubmittedOrder) : Prop :=
  match order with
  | .opens _ => True
  | .closes userId closeSide size leverage _ =>
      engineAccepts (tablePerp getBalance attestedClockStatus) (order.request authorization)
        clock engine table = true
      → othersTake engine.book (closeArgs userId closeSide size leverage) = 0
        ∨ othersTake engine.book (closeArgs userId closeSide size leverage) = size.raw

theorem readEnclave_table (request : OrderRequest) (table : PositionTable)
    : (readEnclave (tablePerp getBalance attestedClockStatus) request table).2 = table := by
  simp only [readEnclave, fetchAvailable, tablePerp]
  cases checkOwner request with
  | error reason => rfl
  | ok _ =>
      cases request.closePositionId with
      | some _ => rfl
      | none =>
          cases readAvailable (getBalance request.args.userId table) with
          | error reason => rfl
          | ok available => rfl

/-- An order that traded at all traded a positive amount. -/
theorem SubmitEffect.tradedSize_pos {book next : OrderBook} {args : SubmitArgs}
    {submission : Submission} {shares : List Share} (inv : BookInv book)
    (effect : SubmitEffect book args submission next shares) (traded : submission.trades ≠ [])
    : 0 < PerpDex.tradedSize submission.trades := by
  rw [effect.tradedSize inv]
  refine List.sum_pos _ (fun amount member => ?_) (fun empty => traded ?_)
  · obtain ⟨share, listed, rfl⟩ := List.mem_map.mp member
    exact (effect.share_bounds inv (List.mem_of_mem_filter listed)).1
  · rw [effect.trades, List.map_eq_nil_iff.mp empty]
    rfl

/-- The trades of a submission name its owner and side. -/
theorem SubmitEffect.taker {book next : OrderBook} {args : SubmitArgs}
    {submission : Submission} {shares : List Share}
    (effect : SubmitEffect book args submission next shares) {trade : Trade}
    (member : trade ∈ submission.trades)
    : trade.takerUserId = args.userId ∧ trade.takerSide = args.side := by
  rw [effect.trades] at member
  obtain ⟨_, _, _, rfl⟩ := mem_shareTrades member
  exact ⟨rfl, rfl⟩

/-- After the settlement loop of any order on a well-formed book, the two sides have changed
by the same amount exactly if the order opens, is refused, or is filled by others in whole or
not at all.
-/
theorem open_interest_balanced_iff (authorization : OrderAuthorization)
    (order : SubmittedOrder) (clock : StpClock) (engine : TradingEngine)
    (table : PositionTable) (inv : BookInv engine.book) (holds : order.Holds table)
    : Balanced table
        (submitOrderInner (tablePerp getBalance attestedClockStatus) crypto
          (order.request authorization) clock engine table).enclave
      ↔ order.KeepsBalance getBalance attestedClockStatus authorization clock engine table := by
  have settles := submitOrderInner_settles (tablePerp getBalance attestedClockStatus) crypto inv
    (order.request authorization) clock table
  rw [readEnclave_table] at settles
  rcases settles with ⟨refused, unchanged⟩ | ⟨attestedMs, submission, next, shares, accepted,
    effect, settled⟩
  · rw [unchanged]
    have quiet : Balanced table table := by simp [Balanced]
    refine iff_of_true quiet ?_
    cases order with
    | opens args => trivial
    | closes userId closeSide size leverage positionId =>
        exact fun accepted => absurd accepted (by rw [refused]; simp)
  · rw [settled]
    cases order with
    | opens args =>
        refine iff_of_true ?_ trivial
        simp only [Balanced, SubmittedOrder.request, settleTrades_opens]
        ring
    | closes userId closeSide size leverage positionId =>
        have clocked : BookInv (engine.book.setAttestedMs attestedMs) :=
          inv.congr rfl rfl le_rfl
        have taken : shares = takes (engine.book.setAttestedMs attestedMs)
            ((engine.book.setAttestedMs attestedMs).newOrder
              (closeArgs userId closeSide size leverage)) := by
          rcases effect.taken with ⟨_, fillOrKill⟩ | taken
          · exact absurd fillOrKill (by simp [SubmittedOrder.request, closeArgs])
          · exact taken
        have traded : tradedSize submission.trades
            = othersTake engine.book (closeArgs userId closeSide size leverage) := by
          rw [effect.tradedSize clocked, taken]
          rfl
        have condition : SubmittedOrder.KeepsBalance getBalance attestedClockStatus
            authorization clock engine table
            (.closes userId closeSide size leverage positionId)
            ↔ tradedSize submission.trades = 0 ∨ tradedSize submission.trades = size.raw := by
          simp only [SubmittedOrder.KeepsBalance, accepted, true_implies, traded]
        rw [condition]
        by_cases untraded : submission.trades = []
        · rw [untraded]
          refine iff_of_true ?_ (Or.inl rfl)
          simp [Balanced, settleTrades]
        · have sides : ∀ trade ∈ submission.trades, trade.takerSide = closeSide :=
            fun trade member => (effect.taker member).2
          have takers : ∀ trade ∈ submission.trades, trade.takerUserId = userId :=
            fun trade member => (effect.taker member).1
          have positive := effect.tradedSize_pos clocked untraded
          simp only [Balanced, SubmittedOrder.request,
            settleTrades_closes getBalance attestedClockStatus _ untraded sides takers holds]
          cases closeSide <;> simp [Side.opposite] <;> omega

end Balance

/-- A table in which the taker is short some units. -/
def shortTable (size : Int) : PositionTable where
  positions := [⟨7, takerAddress, .short, size⟩]
  nextId := 8
  fresh := by simp
  distinct := by simp

/-- An enclave whose clock runs and which is not asked for balances. -/
def clockedPerp : PerpClient PositionTable :=
  tablePerp (fun _ _ => .error "unused")
    (fun _ =>
      .ok (.object [("attested_close_time_ripple_epoch", .number (.posInt 813315200))]))

/-- An engine on whose book the maker offers one unit. -/
def oneOffered : TradingEngine where
  book :=
    (OrderBook.new "XRP-USD-PERP").run
      [.setAttestedMs 1_760_000_000_000, .submitOrder (unitOrder makerAddress .short) ⟨0, 0⟩]
  seqNum := 1
  peerId := ""
  publishes := false

/-- The taker closes its short position by buying. -/
def closeShort (units : Int) : SubmittedOrder :=
  .closes takerAddress .long (FP8.ofRaw (units * fp8Scale)) 1 7

/-- Closing one unit against an offer of one unit keeps the balance. -/
theorem open_interest_balanced_whole
    : BookInv oneOffered.book
      ∧ (closeShort 1).Holds (shortTable (1 * fp8Scale))
      ∧ Balanced (shortTable (1 * fp8Scale))
          (submitOrderInner clockedPerp sampleCrypto
            ((closeShort 1).request (.clientSigned closeOneBinding)) ⟨0, 0⟩ oneOffered
            (shortTable (1 * fp8Scale))).enclave := by
  have inv : BookInv oneOffered.book := (BookInv.new _).run _
  have holds : (closeShort 1).Holds (shortTable (1 * fp8Scale)) := List.mem_singleton.mpr rfl
  refine ⟨inv, holds, ?_⟩
  refine (open_interest_balanced_iff _ _ sampleCrypto _ (closeShort 1) ⟨0, 0⟩ oneOffered _ inv
    holds).mpr (fun _ => Or.inr ?_)
  decide +kernel

/-- Closing two units against an offer of one unit removes both from the short side while
one is opened there.
-/
theorem partial_close_unbalances
    : BookInv oneOffered.book
      ∧ (closeShort 2).Holds (shortTable (2 * fp8Scale))
      ∧ ¬ Balanced (shortTable (2 * fp8Scale))
          (submitOrderInner clockedPerp sampleCrypto
            ((closeShort 2).request (.clientSigned closeOneBinding)) ⟨0, 0⟩ oneOffered
            (shortTable (2 * fp8Scale))).enclave := by
  refine ⟨(BookInv.new _).run _, List.mem_singleton.mpr rfl, ?_⟩
  unfold Balanced
  decide +kernel

end PerpDex
