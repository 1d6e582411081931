import PerpDex.OrderBook.Sweep

/-! One side of the book as a queue in price-time priority.
A side's levels flatten to one queue, best price first; matching an order against the
levels is a sweep of the crossing part of that queue, and only thins each level.
-/

namespace PerpDex

open OrderBook

/-- An order that may rest on one side at one price level. -/
structure Order.RestsAt (order : Order) (side : Side) (price : Int) : Prop where
  side : order.side = side
  limit : order.orderType = .limit
  gtc : order.timeInForce = .gtc
  price : order.price.raw = price
  unfilled : order.Unfilled

/-- The representation invariant of one side: no level is empty, its orders belong there,
and ids increase inside a level, which is time priority.
-/
structure LevelsInv (side : Side) (levels : Levels) : Prop where
  nonempty : ∀ entry ∈ levels.entries, entry.2 ≠ []
  resting : ∀ entry ∈ levels.entries, ∀ order ∈ entry.2, order.RestsAt side entry.1
  increasing : ∀ entry ∈ levels.entries, (entry.2.map Order.id).Pairwise (· < ·)

theorem LevelsInv.empty (side : Side) : LevelsInv side .empty where
  nonempty := fun _ member => absurd member List.not_mem_nil
  resting := fun _ member => absurd member List.not_mem_nil
  increasing := fun _ member => absurd member List.not_mem_nil

/-- The same resting order after further fills or self-trade decrements. -/
structure Order.ReducedTo (before after : Order) : Prop where
  terms : after = { before with filled := after.filled, status := after.status }
  filled : before.filled.raw ≤ after.filled.raw
  unfilled : after.Unfilled

theorem Order.ReducedTo.refl {order : Order} (unfilled : order.Unfilled)
    : order.ReducedTo order :=
  ⟨rfl, le_rfl, unfilled⟩

theorem Order.ReducedTo.id_eq {before after : Order} (reduced : before.ReducedTo after)
    : after.id = before.id := by
  rw [reduced.terms]

theorem Order.ReducedTo.price_eq {before after : Order} (reduced : before.ReducedTo after)
    : after.price = before.price := by
  rw [reduced.terms]

theorem Order.ReducedTo.restsAt {before after : Order} {side : Side} {price : Int}
    (reduced : before.ReducedTo after) (rests : before.RestsAt side price)
    : after.RestsAt side price := by
  have terms := reduced.terms
  refine ⟨?_, ?_, ?_, ?_, reduced.unfilled⟩
  · rw [terms]; exact rests.side
  · rw [terms]; exact rests.limit
  · rw [terms]; exact rests.gtc
  · rw [terms]; exact rests.price

/-- Orders were removed from a list or reduced in place. -/
def Thins (before after : List Order) : Prop :=
  List.SublistForall₂ (fun new old => Order.ReducedTo old new) after before

theorem Thins.refl {orders : List Order} (unfilled : ∀ order ∈ orders, order.Unfilled)
    : Thins orders orders := by
  induction orders with
  | nil => exact .nil
  | cons order rest ih =>
      exact .cons (.refl (unfilled order List.mem_cons_self))
        (ih (fun other member => unfilled other (List.mem_cons_of_mem _ member)))

/-- Removing orders thins a list. -/
theorem Thins.of_sublist {before after : List Order} (sublist : after.Sublist before)
    (unfilled : ∀ order ∈ before, order.Unfilled)
    : Thins before after := by
  refine List.sublistForall₂_iff.mpr ⟨after, ?_, sublist⟩
  exact List.forall₂_same.mpr (fun order member => .refl (unfilled order (sublist.mem member)))

/-- Thinning distributes over concatenation. -/
theorem Thins.append {front back frontLeft backLeft : List Order}
    (first : Thins front frontLeft) (second : Thins back backLeft)
    : Thins (front ++ back) (frontLeft ++ backLeft) := by
  obtain ⟨frontMiddle, frontRel, frontSub⟩ := List.sublistForall₂_iff.mp first
  obtain ⟨backMiddle, backRel, backSub⟩ := List.sublistForall₂_iff.mp second
  exact List.sublistForall₂_iff.mpr
    ⟨frontMiddle ++ backMiddle, List.rel_append frontRel backRel, frontSub.append backSub⟩

/-- Every order of a thinned list is a reduced order of the original. -/
theorem Thins.origin {before after : List Order} (thins : Thins before after) {order : Order}
    (member : order ∈ after)
    : ∃ old ∈ before, old.ReducedTo order := by
  induction thins with
  | nil => exact absurd member List.not_mem_nil
  | cons reduced _ ih =>
      rcases List.mem_cons.mp member with rfl | later
      · exact ⟨_, List.mem_cons_self, reduced⟩
      · obtain ⟨old, found, related⟩ := ih later
        exact ⟨old, List.mem_cons_of_mem _ found, related⟩
  | cons_right _ ih =>
      obtain ⟨old, found, related⟩ := ih member
      exact ⟨old, List.mem_cons_of_mem _ found, related⟩

/-- Thinning removes ids but reorders and renames none. -/
theorem Thins.ids_sublist {before after : List Order} (thins : Thins before after)
    : (after.map Order.id).Sublist (before.map Order.id) := by
  induction thins with
  | nil => exact List.nil_sublist _
  | cons reduced _ ih =>
      simp only [List.map_cons, reduced.id_eq]
      exact ih.cons_cons _
  | cons_right _ ih => exact ih.cons _

/-- A visited maker is gone or reduced, by cases on the step. -/
theorem MakerStep.thins {context : MatchContext} {price : Int} {matching next : Matching}
    {maker : Order} {kept : Option Order}
    (live : matching.taker.filled.raw < matching.taker.size.raw) (unfilled : maker.Unfilled)
    (step : MakerStep context price matching maker kept next)
    : Thins [maker] kept.toList := by
  obtain ⟨positive, _, _⟩ := meet_bounds live unfilled
  have nonneg := unfilled.1
  cases step with
  | decrement _ _ filledEq remains | fill _ _ _ filledEq remains =>
      refine .cons ⟨rfl, ?_, ?_, remains⟩ .nil
      · simp only [filledEq]; omega
      · simp only [filledEq]; omega
  | decrementOut _ _ _ _ | fillOut _ _ _ _ _ => exact .nil

/-- A sweep thins the queue it sweeps, by induction over the visits. -/
theorem Sweeps.thins {context : MatchContext} {matching final : Matching}
    {queue left : List Order} (sweeps : Sweeps context matching queue left final)
    (unfilled : ∀ maker ∈ queue, maker.Unfilled)
    : Thins queue left := by
  induction sweeps with
  | nil => exact .nil
  | exhausted _ => exact .refl unfilled
  | @visit _ _ _ maker _ rest _ live step _ ih =>
      have head := step.thins live (unfilled maker List.mem_cons_self)
      exact head.append
        (ih (fun other member => unfilled other (List.mem_cons_of_mem _ member)))

/-- A side whose levels are thinned versions of the old levels keeps its invariant, once
emptied levels are dropped.
-/
theorem LevelsInv.of_thinned {side : Side} {before after : Levels}
    (inv : LevelsInv side before)
    (thinned
      : ∀ entry ∈ after.entries, ∃ level, (entry.1, level) ∈ before.entries
          ∧ Thins level entry.2)
    : LevelsInv side (dropEmpty after) := by
  have kept : ∀ entry ∈ (dropEmpty after).entries, entry ∈ after.entries ∧ entry.2 ≠ [] := by
    intro entry member
    simpa [dropEmpty, BTreeMap.retain, List.isEmpty_iff] using member
  refine ⟨fun entry member => (kept entry member).2, ?_, ?_⟩
  · intro entry member order found
    obtain ⟨level, old, thins⟩ := thinned entry (kept entry member).1
    obtain ⟨origin, present, reduced⟩ := thins.origin found
    exact reduced.restsAt (inv.resting _ old origin present)
  · intro entry member
    obtain ⟨level, old, thins⟩ := thinned entry (kept entry member).1
    exact (inv.increasing _ old).sublist thins.ids_sublist

-----------------------------------------------------------------------------------------
-- Priority order
-----------------------------------------------------------------------------------------

/-- The levels on which orders of `side` rest, best price first. -/
def priority (side : Side) (levels : Levels) : List (Int × PriceLevel) :=
  match side with
  | .long => levels.entries.reverse
  | .short => levels.entries

/-- The resting orders of one side in price-time priority. -/
def queue (side : Side) (levels : Levels) : List Order :=
  (priority side levels).flatMap Prod.snd

theorem mem_priority {side : Side} {levels : Levels} {entry : Int × PriceLevel}
    : entry ∈ priority side levels ↔ entry ∈ levels.entries := by
  cases side <;> simp [priority]

theorem priority_keys_nodup (side : Side) (levels : Levels)
    : ((priority side levels).map Prod.fst).Nodup := by
  cases side with
  | long =>
      simp only [priority, List.map_reverse]
      exact List.nodup_reverse.mpr levels.keys_nodup
  | short => exact levels.keys_nodup

theorem mem_queue {side : Side} {levels : Levels} {order : Order}
    : order ∈ queue side levels ↔ ∃ entry ∈ levels.entries, order ∈ entry.2 := by
  simp only [queue, List.mem_flatMap, mem_priority]

theorem LevelsInv.unfilled {side : Side} {levels : Levels} (inv : LevelsInv side levels)
    : ∀ order ∈ queue side levels, order.Unfilled := by
  intro order member
  obtain ⟨entry, found, present⟩ := mem_queue.mp member
  exact (inv.resting entry found order present).unfilled

/-- The priority queue lists exactly the orders stored on the side. -/
theorem queue_perm (side : Side) (levels : Levels)
    : (queue side levels).Perm levels.values.flatten := by
  cases side with
  | long =>
      simp only [queue, priority, BTreeMap.values, ← List.flatMap_def]
      exact List.Perm.flatMap_right _ levels.entries.reverse_perm
  | short => simp only [queue, priority, BTreeMap.values, ← List.flatMap_def]; rfl

/-- Updating one price changes one entry of the priority order. -/
theorem priority_modify {side : Side} {levels : Levels} {price : Int}
    {level next : PriceLevel} {front back : List (Int × PriceLevel)}
    (split : priority side levels = front ++ (price, level) :: back)
    : priority side (levels.modify price (fun _ => next)) = front ++ (price, next) :: back := by
  have distinct := priority_keys_nodup side levels
  have mapped : priority side (levels.modify price (fun _ => next))
      = (priority side levels).map
          (fun entry => (entry.1, if entry.1 = price then next else entry.2)) := by
    cases side <;>
      simp [priority, BTreeMap.modify, BTreeMap.mapValues, BTreeMap.mapEntries]
  rw [split] at distinct mapped
  simp only [List.map_append, List.map_cons, List.nodup_append, List.nodup_cons] at distinct
  have other : ∀ entry ∈ front ++ back, entry.1 ≠ price := by
    intro entry member clash
    rcases List.mem_append.mp member with before | after
    · exact distinct.2.2 entry.1 (List.mem_map_of_mem before) price
        (List.mem_cons_self) clash
    · exact distinct.2.1.1 (clash ▸ List.mem_map_of_mem after)
  have fixed : ∀ part : List (Int × PriceLevel), (∀ entry ∈ part, entry.1 ≠ price)
      → part.map (fun entry => (entry.1, if entry.1 = price then next else entry.2)) = part := by
    intro part apart
    refine (List.map_congr_left (fun entry member => ?_)).trans (List.map_id _)
    simp [apart entry member]
  rw [mapped, List.map_append, List.map_cons,
    fixed front (fun entry member => other entry (List.mem_append_left _ member)),
    fixed back (fun entry member => other entry (List.mem_append_right _ member))]
  simp

/-- The loop over prices, run on the entries themselves. -/
def sweepEntries (context : MatchContext)
    : Matching → List (Int × PriceLevel) → List (Int × PriceLevel) × Matching
  | matching, [] => ([], matching)
  | matching, entry :: rest =>
      if matching.taker.remaining.raw ≤ 0 then (entry :: rest, matching)
      else
        let (level, matching) := matchLevel context entry.1 matching entry.2
        let (rest, matching) := sweepEntries context matching rest
        ((entry.1, level) :: rest, matching)

/-- Looking prices up one by one is the same as walking the entries.
Witness: induction over the entries still to visit; the ones before are settled.
-/
theorem matchPrices_entries {context : MatchContext} {side : Side}
    {front middle back : List (Int × PriceLevel)} {matching : Matching} {levels : Levels}
    (split : priority side levels = front ++ (middle ++ back))
    : priority side (matchPrices context (middle.map Prod.fst) matching levels).1
        = front ++ ((sweepEntries context matching middle).1 ++ back)
      ∧ (matchPrices context (middle.map Prod.fst) matching levels).2
        = (sweepEntries context matching middle).2 := by
  induction middle generalizing front matching levels with
  | nil => exact ⟨split, rfl⟩
  | cons entry rest ih =>
      obtain ⟨price, level⟩ := entry
      simp only [List.map_cons, matchPrices, sweepEntries]
      split_ifs with done
      · exact ⟨split, rfl⟩
      · have member : (price, level) ∈ levels.entries := by
          refine mem_priority.mp (?_ : _ ∈ priority side levels)
          rw [split]
          simp
        have found : levels.get? price = some level := BTreeMap.get?_eq_some_iff.mpr member
        simp only [found]
        generalize matchLevel context price matching level = result
        have updated : priority side (levels.modify price (fun _ => result.1))
            = (front ++ [(price, result.1)]) ++ (rest ++ back) := by
          simpa using priority_modify split
        simpa using ih updated

/-- Every element of the second of two related lists comes from one of the first. -/
theorem forall₂_origin {α β : Type} {relation : α → β → Prop} {left : List α}
    {right : List β} (related : List.Forall₂ relation left right) {element : β}
    (member : element ∈ right)
    : ∃ origin ∈ left, relation origin element := by
  induction related with
  | nil => exact absurd member List.not_mem_nil
  | cons head _ ih =>
      rcases List.mem_cons.mp member with rfl | later
      · exact ⟨_, List.mem_cons_self, head⟩
      · obtain ⟨origin, found, holds⟩ := ih later
        exact ⟨origin, List.mem_cons_of_mem _ found, holds⟩

/-- Walking the entries thins each level in place. -/
theorem sweepEntries_thins {context : MatchContext} {side : Side}
    {entries : List (Int × PriceLevel)} {matching : Matching}
    (resting : ∀ entry ∈ entries, ∀ order ∈ entry.2, order.RestsAt side entry.1)
    (sane : matching.Sane)
    : List.Forall₂ (fun old new => new.1 = old.1 ∧ Thins old.2 new.2) entries
        (sweepEntries context matching entries).1 := by
  induction entries generalizing matching with
  | nil => exact .nil
  | cons entry rest ih =>
      have own := resting entry List.mem_cons_self
      have others := fun other member => resting other (List.mem_cons_of_mem _ member)
      have unfilled : ∀ order ∈ entry.2, order.Unfilled := fun order member =>
        (own order member).unfilled
      simp only [sweepEntries]
      split_ifs with done
      · exact List.forall₂_same.mpr (fun other member =>
          ⟨rfl, .refl (fun order found => (resting other member order found).unfilled)⟩)
      · have sweeps := @matchLevel_sweeps context entry.1 entry.2
          (fun order member => (own order member).price) unfilled matching sane
        exact .cons ⟨rfl, sweeps.thins unfilled⟩ (ih others (sweeps.sane unfilled sane))

/-- Walking the entries sweeps their concatenated orders. -/
theorem sweepEntries_sweeps {context : MatchContext} {side : Side}
    {entries : List (Int × PriceLevel)} {matching : Matching}
    (resting : ∀ entry ∈ entries, ∀ order ∈ entry.2, order.RestsAt side entry.1)
    (sane : matching.Sane)
    : Sweeps context matching (entries.flatMap Prod.snd)
        ((sweepEntries context matching entries).1.flatMap Prod.snd)
        (sweepEntries context matching entries).2 := by
  induction entries generalizing matching with
  | nil => exact .nil
  | cons entry rest ih =>
      have own := resting entry List.mem_cons_self
      have unfilled : ∀ order ∈ entry.2, order.Unfilled := fun order member =>
        (own order member).unfilled
      simp only [sweepEntries]
      split_ifs with done
      · have remaining := Order.Sane.remaining_raw sane
        exact .idle (by omega) _
      · have sweeps := @matchLevel_sweeps context entry.1 entry.2
          (fun order member => (own order member).price) unfilled matching sane
        simp only [List.flatMap_cons]
        exact sweeps.append
          (ih (fun other member => resting other (List.mem_cons_of_mem _ member))
            (sweeps.sane unfilled sane))

/-- Once a price is too bad for the taker, every later price is. -/
theorem crosses_antitone {order : Order} {better worse : Int}
    (worsening : match order.side with | .long => better ≤ worse | .short => worse ≤ better)
    (crossing : crosses order worse = true)
    : crosses order better = true := by
  cases side : order.side <;> simp only [crosses, side, Bool.or_eq_true, decide_eq_true_eq]
    at worsening crossing ⊢ <;> exact crossing.imp_right (fun bound => by omega)

/-- Prices worsen along the priority order of the side opposite to a taker. -/
theorem priority_worsens (order : Order) (levels : Levels)
    : (priority order.side.opposite levels).Pairwise
        (fun better worse =>
          match order.side with
          | .long => better.1 ≤ worse.1
          | .short => worse.1 ≤ better.1) := by
  cases order.side with
  | long => exact levels.sorted.imp le_of_lt
  | short => exact List.pairwise_reverse.mpr (levels.sorted.imp le_of_lt)

/-- On a queue of worsening prices, the crossing prices come first, so splitting at the
first price that does not cross separates the two kinds.
-/
theorem span_crosses {order : Order} {entries : List (Int × PriceLevel)}
    (worsens
      : entries.Pairwise
          (fun better worse =>
            match order.side with
            | .long => better.1 ≤ worse.1
            | .short => worse.1 ≤ better.1))
    : entries.takeWhile (fun entry => crosses order entry.1)
        = entries.filter (fun entry => crosses order entry.1)
      ∧ entries.dropWhile (fun entry => crosses order entry.1)
        = entries.filter (fun entry => !crosses order entry.1) := by
  induction entries with
  | nil => exact ⟨rfl, rfl⟩
  | cons entry rest ih =>
      obtain ⟨first, tail⟩ := List.pairwise_cons.mp worsens
      obtain ⟨takes, drops⟩ := ih tail
      by_cases crossing : crosses order entry.1 = true
      · simp [crossing, takes, drops]
      · have none : ∀ other ∈ rest, ¬crosses order other.1 = true := fun other member crossed =>
          crossing (crosses_antitone (first other member) crossed)
        have all : ∀ other ∈ rest, (!crosses order other.1) = true := fun other member => by
          simpa using none other member
        simp [crossing, List.filter_eq_nil_iff.mpr none, List.filter_eq_self.mpr all]

/-- The prices `match_order` collects are those of the crossing entries. -/
theorem matchingPrices_eq (order : Order) (levels : Levels)
    : matchingPrices order levels
      = ((priority order.side.opposite levels).takeWhile
          (fun entry => crosses order entry.1)).map Prod.fst := by
  have commutes : ∀ entries : List (Int × PriceLevel),
      (entries.map Prod.fst).takeWhile (crosses order)
        = (entries.takeWhile (fun entry => crosses order entry.1)).map Prod.fst := by
    intro entries
    rw [List.takeWhile_map]
    rfl
  cases side : order.side with
  | long => simp only [matchingPrices, side, Side.opposite, priority, BTreeMap.keys, commutes]
  | short =>
      simp only [matchingPrices, side, Side.opposite, priority, BTreeMap.keys,
        ← List.map_reverse, commutes]

/-- The makers of a queue an order may trade with. -/
def crossing (order : Order) (makers : List Order) : List Order :=
  makers.filter (fun maker => crosses order maker.price.raw)

/-- The makers of a queue whose price is too bad for an order. -/
def beyond (order : Order) (makers : List Order) : List Order :=
  makers.filter (fun maker => !crosses order maker.price.raw)

/-- Every order is filed under its own price. -/
def Filed (entries : List (Int × PriceLevel)) : Prop :=
  ∀ entry ∈ entries, ∀ order ∈ entry.2, order.price.raw = entry.1

theorem Filed.of_resting {side : Side} {entries : List (Int × PriceLevel)}
    (resting : ∀ entry ∈ entries, ∀ order ∈ entry.2, order.RestsAt side entry.1)
    : Filed entries := fun entry member order found =>
  (resting entry member order found).price

/-- Flattening the entries that pass a price test filters the queue by that test. -/
theorem flatMap_filter_price {entries : List (Int × PriceLevel)} (filed : Filed entries)
    (test : Int → Bool)
    : (entries.filter (fun entry => test entry.1)).flatMap Prod.snd
      = (entries.flatMap Prod.snd).filter (fun order => test order.price.raw) := by
  induction entries with
  | nil => rfl
  | cons entry rest ih =>
      have later := ih (fun other member => filed other (List.mem_cons_of_mem _ member))
      have priced : ∀ order ∈ entry.2, test order.price.raw = test entry.1 := fun order member =>
        congrArg test (filed entry List.mem_cons_self order member)
      by_cases passes : test entry.1 = true
      · have all := List.filter_eq_self.mpr (fun order member =>
          (priced order member).trans passes)
        simp [passes, later, all]
      · have none := List.filter_eq_nil_iff.mpr (fun order member =>
          (priced order member).symm ▸ passes)
        simp [passes, later, none]

/-- Emptied levels contribute nothing to the queue. -/
theorem queue_dropEmpty (side : Side) (levels : Levels)
    : queue side (dropEmpty levels) = queue side levels := by
  have flat : ∀ entries : List (Int × PriceLevel),
      (entries.filter (fun entry => !entry.2.isEmpty)).flatMap Prod.snd
        = entries.flatMap Prod.snd := by
    intro entries
    induction entries with
    | nil => rfl
    | cons entry rest ih =>
        cases level : entry.2 with
        | nil => simp [level, ih]
        | cons order others => simp [level, ih]
  cases side with
  | long =>
      simp only [queue, priority, dropEmpty, BTreeMap.retain, ← List.filter_reverse]
      exact flat _
  | short => exact flat _

/-- An unexhausted taker has removed every maker it could trade with. -/
theorem Sweeps.left_nil {context : MatchContext} {matching final : Matching}
    {makers left : List Order} (sweeps : Sweeps context matching makers left final)
    (unfilled : ∀ maker ∈ makers, maker.Unfilled)
    (live : final.taker.filled.raw < final.taker.size.raw)
    : left = [] := by
  induction sweeps with
  | nil => rfl
  | exhausted done => exact absurd live (not_lt.mpr done)
  | @visit matching middle final maker kept rest left before step tail ih =>
      have rest := ih (fun other member => unfilled other (List.mem_cons_of_mem _ member)) live
      have room := meet_bounds before (unfilled maker List.mem_cons_self)
      -- a maker that stays took all the taker had, and an idle taker stays idle
      have gone : kept = none := by
        have stop : ∀ {queue left : List Order} {start finish : Matching},
            Sweeps context start queue left finish
            → start.taker.size.raw ≤ start.taker.filled.raw
            → finish.taker = start.taker := by
          intro queue left start finish moves done
          cases moves with
          | nil | exhausted _ => rfl
          | visit live _ _ => exact absurd live (not_lt.mpr done)
        cases step with
        | decrementOut _ _ _ _ | fillOut _ _ _ _ _ => rfl
        | decrement _ sizeEq filledEq remains =>
            have idle := stop tail (by simp only [sizeEq, meet] at *; omega)
            rw [idle] at live
            simp only [sizeEq, meet] at *
            omega
        | fill _ _ takerEq filledEq remains =>
            have idle := stop tail (by simp only [takerEq, meet] at *; omega)
            rw [idle] at live
            simp only [takerEq, meet] at *
            omega
      simp [gone, rest]

-----------------------------------------------------------------------------------------
-- Matching refines the sweep
-----------------------------------------------------------------------------------------

@[simp]
theorem levels_setLevels (book : OrderBook) (side : Side) (levels : Levels)
    : (book.setLevels side levels).levels side = levels := by
  cases side <;> rfl

/-- What matching a taker does to the book: it sweeps the crossing part of the opposite
queue, keeps the rest of it, and touches nothing else but the trade log.
-/
structure MatchEffect (book : OrderBook) (taker : Order) (matching : Matching)
    (next : OrderBook)
    : Prop where
  sweep
    : ∃ left,
        Sweeps book.context (book.startMatching taker)
            (crossing taker (queue taker.side.opposite (book.levels taker.side.opposite)))
            left matching
        ∧ queue taker.side.opposite (next.levels taker.side.opposite)
          = left
            ++ beyond taker (queue taker.side.opposite (book.levels taker.side.opposite))
  levels : LevelsInv taker.side.opposite (next.levels taker.side.opposite)
  frame
    : next
      = { book.setLevels taker.side.opposite (next.levels taker.side.opposite) with
          nextTradeId := matching.nextTradeId
          recentTrades := matching.recentTrades }

/-- The opposite levels after matching: the crossing entries swept, the others kept, and
emptied levels dropped.
-/
theorem matchOrder_priority (book : OrderBook) (taker : Order)
    : ∃ after : Levels,
        (book.matchOrder taker).2
          = { book.setLevels taker.side.opposite (dropEmpty after) with
              nextTradeId := (book.matchOrder taker).1.nextTradeId
              recentTrades := (book.matchOrder taker).1.recentTrades }
        ∧ (book.matchOrder taker).1
          = (sweepEntries book.context (book.startMatching taker)
              ((priority taker.side.opposite (book.levels taker.side.opposite)).filter
                (fun entry => crosses taker entry.1))).2
        ∧ priority taker.side.opposite after
          = (sweepEntries book.context (book.startMatching taker)
              ((priority taker.side.opposite (book.levels taker.side.opposite)).filter
                (fun entry => crosses taker entry.1))).1
            ++ (priority taker.side.opposite (book.levels taker.side.opposite)).filter
                (fun entry => !crosses taker entry.1) := by
  generalize levelsDef : book.levels taker.side.opposite = levels
  obtain ⟨takes, drops⟩ := span_crosses (priority_worsens taker levels)
  have split := (List.takeWhile_append_dropWhile
    (p := fun entry => crosses taker entry.1)
    (l := priority taker.side.opposite levels)).symm
  obtain ⟨entriesEq, matchingEq⟩ :=
    @matchPrices_entries book.context taker.side.opposite [] _ _ (book.startMatching taker)
      levels (split.trans (List.nil_append _).symm)
  rw [← matchingPrices_eq] at entriesEq matchingEq
  rw [takes] at matchingEq entriesEq
  rw [drops] at entriesEq
  refine ⟨_, ?_, ?_, entriesEq⟩
  · simp only [OrderBook.matchOrder, levelsDef]
    cases taker.side <;> rfl
  · simp only [OrderBook.matchOrder, levelsDef]
    exact matchingEq

/-- The executable `match_order` has that effect on a well-formed opposite side.
Witness: the swept entries flatten to a sweep of the crossing queue.
-/
theorem matchOrder_effect {book : OrderBook} {taker : Order}
    (inv : LevelsInv taker.side.opposite (book.levels taker.side.opposite))
    (sane : taker.Sane)
    : MatchEffect book taker (book.matchOrder taker).1 (book.matchOrder taker).2 := by
  obtain ⟨after, nextEq, matchingEq, entriesEq⟩ := matchOrder_priority book taker
  have levelsEq : (book.matchOrder taker).2.levels taker.side.opposite = dropEmpty after := by
    rw [nextEq]
    cases taker.side <;> rfl
  have resting : ∀ entry ∈ priority taker.side.opposite (book.levels taker.side.opposite),
      ∀ order ∈ entry.2, order.RestsAt taker.side.opposite entry.1 := fun entry member =>
    inv.resting entry (mem_priority.mp member)
  have sweptResting
      : ∀ entry ∈ (priority taker.side.opposite (book.levels taker.side.opposite)).filter
          (fun entry => crosses taker entry.1),
          ∀ order ∈ entry.2, order.RestsAt taker.side.opposite entry.1 :=
    fun entry member => resting entry (List.mem_of_mem_filter member)
  have startSane : (book.startMatching taker).Sane := sane
  have sweeps := @sweepEntries_sweeps book.context _ _ _ sweptResting startSane
  have thins := @sweepEntries_thins book.context _ _ _ sweptResting startSane
  rw [flatMap_filter_price (.of_resting resting) (crosses taker)] at sweeps
  rw [← matchingEq] at sweeps
  refine ⟨⟨_, sweeps, ?_⟩, ?_, ?_⟩
  · rw [levelsEq, queue_dropEmpty, queue, entriesEq, List.flatMap_append]
    congr 1
    exact flatMap_filter_price (.of_resting resting) (fun price => !crosses taker price)
  · rw [levelsEq]
    refine inv.of_thinned (fun entry member => ?_)
    have listed : entry ∈ priority taker.side.opposite after := mem_priority.mpr member
    rw [entriesEq] at listed
    rcases List.mem_append.mp listed with swept | kept
    · obtain ⟨old, found, same, thinned⟩ := forall₂_origin thins swept
      have present := mem_priority.mp (List.mem_of_mem_filter found)
      exact ⟨old.2, by rw [same]; exact present, thinned⟩
    · have present := List.mem_of_mem_filter kept
      exact ⟨entry.2, mem_priority.mp present,
        .refl (fun order found => (resting entry present order found).unfilled)⟩
  · rw [levelsEq]
    exact nextEq

end PerpDex
