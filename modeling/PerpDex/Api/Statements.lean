import PerpDex.Api.Orders
import PerpDex.Trading.Outcome

/-! The statements of the handlers, row by row.
A submission writes the row of every order it touched: an insert for the order itself, and
for each maker that gave up a share the statement its lookup in the book gives.
-/

namespace PerpDex

open OrderBook

/-- Resting orders are never marked cancelled. -/
def Uncancelled (book : OrderBook) : Prop :=
  ∀ orderId order, book.getOrder orderId = some order → order.status ≠ .cancelled

section Submit

variable {book next : OrderBook} {args : SubmitArgs} {submission : Submission}
  {shares : List Share}

/-- The statement for a decremented maker is the one its lookup would give. -/
theorem syncDecrement_eq (inv : BookInv book) (uncancelled : Uncancelled book)
    (effect : SubmitEffect book args submission next shares) {share : Share}
    (member : share ∈ shares) (own : share.1.userId = args.userId)
    : syncDecrement (shareDecrement share) = syncMaker next share.1.id := by
  have found := (getOrder_eq_some_iff inv).mpr ⟨effect.share_resting member, rfl⟩
  have live := uncancelled _ _ found
  rw [syncMaker, effect.lookup_share inv member]
  by_cases whole : share.2 = share.1.openRaw
  · simp [syncDecrement, shareDecrement, shareLeft, whole]
  · simp [syncDecrement, shareDecrement, shareLeft, whole, live, own]

theorem syncMaker_target (book : OrderBook) (inv : BookInv book) (orderId : Nat)
    : (syncMaker book orderId).target = orderId := by
  simp only [syncMaker]
  split
  · rename_i maker found
    exact ((getOrder_eq_some_iff inv).mp found).2
  · rfl

theorem syncMaker_idempotent (book : OrderBook) (orderId : Nat) (row : Option RestingRow)
    : (syncMaker book orderId).effect ((syncMaker book orderId).effect row)
      = (syncMaker book orderId).effect row := by
  simp only [syncMaker]
  split <;> cases row <;> rfl

/-- The statements about makers are the syncs of the makers that gave up a share. -/
theorem makerStatements_eq (inv : BookInv book) (uncancelled : Uncancelled book)
    (effect : SubmitEffect book args submission next shares)
    : submission.trades.map (fun trade => syncMaker next trade.makerOrderId)
        ++ submission.stpCancelled.map syncDecrement
      = (foreignShares args.userId shares).map (fun share => syncMaker next share.1.id)
        ++ (ownShares args.userId shares).map (fun share => syncMaker next share.1.id) := by
  have trades : submission.trades.map (fun trade => syncMaker next trade.makerOrderId)
      = (foreignShares args.userId shares).map (fun share => syncMaker next share.1.id) := by
    have mapped := congrArg (List.map (syncMaker next)) effect.makers
    rw [List.map_map, List.map_map] at mapped
    exact mapped
  have decrements : submission.stpCancelled.map syncDecrement
      = (ownShares args.userId shares).map (fun share => syncMaker next share.1.id) := by
    rw [effect.decrements, List.map_map]
    refine List.map_congr_left (fun share member => ?_)
    obtain ⟨present, own⟩ := List.mem_filter.mp member
    exact syncDecrement_eq inv uncancelled effect present (by simpa using own)
  rw [trades, decrements]

/-- Own and foreign shares together are all of them. -/
theorem mem_map_shares_iff {α : Type} {userId : String} {shares : List Share} {write : Share → α}
    {item : α}
    : item ∈ (foreignShares userId shares).map write ++ (ownShares userId shares).map write
      ↔ ∃ share ∈ shares, write share = item := by
  rw [List.mem_append, List.mem_map, List.mem_map]
  constructor
  · rintro (⟨share, foreign, same⟩ | ⟨share, own, same⟩)
    · exact ⟨share, List.mem_of_mem_filter foreign, same⟩
    · exact ⟨share, List.mem_of_mem_filter own, same⟩
  · rintro ⟨share, present, same⟩
    by_cases own : share.1.userId = userId
    · exact Or.inr ⟨share, List.mem_filter.mpr ⟨present, by simpa using own⟩, same⟩
    · exact Or.inl ⟨share, List.mem_filter.mpr ⟨present, by simpa using own⟩, same⟩

/-- The syncs of one id are all the same statement. -/
theorem foldl_syncs (nextInv : BookInv next) {syncs : List DbStatement}
    (origin
      : ∀ statement, statement ∈ syncs ↔ ∃ share ∈ shares, syncMaker next share.1.id = statement)
    (orderId : Nat) (row : Option RestingRow)
    : (syncs.filter (fun statement => statement.target = orderId)).foldl
        (fun row statement => statement.effect row) row
      = if (shareOf shares orderId).isSome then (syncMaker next orderId).effect row else row := by
  cases found : shareOf shares orderId with
  | none =>
      have empty : syncs.filter (fun statement => statement.target = orderId) = [] := by
        refine List.filter_eq_nil_iff.mpr (fun statement member => ?_)
        obtain ⟨share, present, rfl⟩ := (origin statement).mp member
        rw [syncMaker_target next nextInv]
        simpa using shareOf_none found share present
      rw [empty]
      rfl
  | some share =>
      obtain ⟨present, rfl⟩ := shareOf_some found
      refine foldl_effect_repeat (fun statement member => ?_) ?_
        (syncMaker_idempotent next share.1.id) row
      · obtain ⟨listed, targets⟩ := List.mem_filter.mp member
        obtain ⟨other, _, rfl⟩ := (origin statement).mp listed
        have same : other.1.id = share.1.id := by
          rw [syncMaker_target next nextInv] at targets
          simpa using targets
        rw [same]
      · have listed := (origin (syncMaker next share.1.id)).mpr ⟨share, present, rfl⟩
        refine List.ne_nil_of_mem (List.mem_filter.mpr ⟨listed, ?_⟩)
        rw [syncMaker_target next nextInv]
        simp

theorem insertOwn_filter {order : Order} {binding : OrderSignatureBinding} {orderId : Nat}
    : (insertOwn order binding).filter (fun statement => statement.target = orderId)
      = if persists order = true ∧ order.id = orderId then [.insertRestingOrder order binding]
        else [] := by
  by_cases kept : persists order = true
  · by_cases same : order.id = orderId <;> simp [insertOwn, kept, same, DbStatement.target]
  · simp [insertOwn, kept]

/-- The statements that write one id: the insert for the order's own id, a sync for the id
of a maker that gave up a share, none otherwise.
-/
theorem submitStatements_row (inv : BookInv book) (nextInv : BookInv next)
    (uncancelled : Uncancelled book) (effect : SubmitEffect book args submission next shares)
    (binding : OrderSignatureBinding) (table : RestingOrders) (orderId : Nat)
    : (table.execAll (submitStatements next binding submission.order submission.trades
        submission.stpCancelled)).get? orderId
      = if persists submission.order ∧ orderId = book.nextOrderId then
          (DbStatement.insertRestingOrder submission.order binding).effect (table.get? orderId)
        else
          match shareOf shares orderId with
          | some _ => (syncMaker next orderId).effect (table.get? orderId)
          | none => table.get? orderId := by
  have ownId : submission.order.id = book.nextOrderId := by rw [effect.terms]; rfl
  rw [get?_execAll, submitStatements, List.append_assoc,
    makerStatements_eq inv uncancelled effect, List.filter_append, List.foldl_append,
    foldl_syncs nextInv (fun _ => mem_map_shares_iff), insertOwn_filter, ownId]
  by_cases own : persists submission.order = true ∧ orderId = book.nextOrderId
  · obtain ⟨kept, rfl⟩ := own
    have unshared : shareOf shares book.nextOrderId = none := by
      refine List.find?_eq_none.mpr (fun share present => ?_)
      have old := inv.issued _ (effect.share_resting present)
      simpa using old.ne
    simp [unshared, kept]
  · have other : ¬ (persists submission.order = true ∧ book.nextOrderId = orderId) :=
      fun both => own ⟨both.1, both.2.symm⟩
    rw [if_neg own, if_neg other]
    cases shareOf shares orderId with
    | none => rfl
    | some share => rfl

theorem shareLeft_status {userId : String} {share : Share} {left : Order}
    (kept : shareLeft userId share = some left)
    : left.status = share.1.status ∨ left.status = .partiallyFilled := by
  obtain ⟨maker, quantity⟩ := share
  by_cases whole : quantity = maker.openRaw
  · simp [shareLeft, whole] at kept
  · simp only [shareLeft, if_neg whole] at kept
    rw [← Option.some.inj kept]
    by_cases own : maker.userId = userId
    · simp [own]
    · simp [own]

theorem Uncancelled.submit (inv : BookInv book) (uncancelled : Uncancelled book)
    (effect : SubmitEffect book args submission next shares)
    : Uncancelled next := by
  intro orderId order found
  rw [effect.lookup] at found
  split_ifs at found with own
  · rw [← Option.some.inj found]
    have kept := own.1
    simp only [persists, Bool.and_eq_true, decide_eq_true_eq] at kept
    simp [kept.1]
  · cases shared : shareOf shares orderId with
    | none =>
        simp only [shared] at found
        exact uncancelled orderId order found
    | some share =>
        simp only [shared] at found
        obtain ⟨present, _⟩ := shareOf_some shared
        have maker := (getOrder_eq_some_iff inv).mpr ⟨effect.share_resting present, rfl⟩
        rcases shareLeft_status found with same | partly
        · rw [same]
          exact uncancelled _ _ maker
        · simp [partly]

end Submit

theorem Uncancelled.delete {book next : OrderBook} (uncancelled : Uncancelled book)
    {gone : List Nat}
    (others
      : ∀ orderId,
          next.getOrder orderId = if orderId ∈ gone then none else book.getOrder orderId)
    : Uncancelled next := by
  intro orderId order found
  rw [others] at found
  split_ifs at found
  exact uncancelled orderId order found

end PerpDex
