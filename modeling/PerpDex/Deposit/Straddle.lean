import PerpDex.Deposit.Cursor

/-! Where a scan leaves its high-water.
The node cuts the window into pages wherever it likes, also within a ledger, and the walk over
them may end in several ways. The high-water is capped by the marker of the last page, so no
unreturned transaction is behind it. A response that is no page ends the walk as if the window
were exhausted, and without a cap.
-/

namespace PerpDex

namespace DepositMonitor

/-- The ledger of a transaction. -/
def ledgerOf (entry : Json) : Nat := ((entryLedger entry).map UInt64.toNat).getD 0

/-- The transactions of the escrow in ledger order. -/
structure EscrowHistory where
  entries : List Json
  located : ∀ entry ∈ entries, ∃ index, entryLedger entry = some index ∧ index.toNat < 2 ^ 32
  ordered : entries.Pairwise (fun earlier later => ledgerOf earlier ≤ ledgerOf later)

/-- What a scan asks for: the transactions after `lastLedger` in the ledgers validated by then. -/
def EscrowHistory.window (history : EscrowHistory) (lastLedger latest : Nat) : List Json :=
  history.entries.filter (fun entry => lastLedger < ledgerOf entry ∧ ledgerOf entry ≤ latest)

/-- The ways a walk over the pages ends; a walk that fails leaves no high-water. -/
inductive Ending where
  | exhausted
  | maxPages
  | errorObject
  | notPage
  | failed
deriving DecidableEq

/-- The node serves some transactions in pages. The marker of a page names the ledger of the
next transaction; `returned` have been listed when the walk ends and `left` have not.
-/
inductive Serves
    : Nat → List Json → List (Except String Json) → List Json → List Json → Ending → Prop where
  | maxPages {remaining responses} : Serves 0 remaining responses [] remaining .maxPages
  | transport {count remaining reason rest}
    : Serves (count + 1) remaining (.error reason :: rest) [] remaining .failed
  | noMembers {count remaining resp rest} (panics : resp.indexMut "result" = none)
    : Serves (count + 1) remaining (.ok resp :: rest) [] remaining .failed
  | errorObject {count remaining resp result rest}
    (taken : resp.indexMut "result" = some result)
    (isError : (result.get "error").isSome = true)
    : Serves (count + 1) remaining (.ok resp :: rest) [] remaining .errorObject
  | notPage {count remaining resp result rest}
    (taken : resp.indexMut "result" = some result) (noError : result.get "error" = none)
    (noMarker : pageMarker result = none) (noTxs : pageTxs result = [])
    : Serves (count + 1) remaining (.ok resp :: rest) [] remaining .notPage
  | exhausted {count remaining resp result rest}
    (taken : resp.indexMut "result" = some result) (noError : result.get "error" = none)
    (noMarker : pageMarker result = none) (txs : pageTxs result = remaining)
    : Serves (count + 1) remaining (.ok resp :: rest) remaining [] .exhausted
  | page {count txs next later resp result rest marker returned left ending}
    (taken : resp.indexMut "result" = some result) (noError : result.get "error" = none)
    (marked : pageMarker result = some marker)
    (names : (marker.index "ledger").asU64.map UInt64.toNat = some (ledgerOf next))
    (isPage : pageTxs result = txs)
    (goesOn : Serves count (next :: later) rest returned left ending)
    : Serves (count + 1) (txs ++ next :: later) (.ok resp :: rest) (txs ++ returned) left ending

/-- What a scan meets: the last validated ledger, the responses, and how they serve the
window.
-/
structure ScanAnswer where
  latest : Nat
  responses : List (Except String Json)
  returned : List Json
  left : List Json
  ending : Ending

def ScanAnswer.Served (history : EscrowHistory) (lastLedger : Nat) (answer : ScanAnswer) : Prop :=
  Serves maxPages (history.window lastLedger answer.latest) answer.responses answer.returned
    answer.left answer.ending

/-- The high-water does not go back, and the transactions up to it are the first ones on the
scanned pages.
-/
def ScanAnswer.StraddleSafe (monitor : XrplMonitor) (history : EscrowHistory) (lastLedger : Nat)
    (answer : ScanAnswer) : Prop :=
  ∀ pages deposits newLedger,
    fetchPages maxPages answer.responses = .ok pages
    → scanPages monitor lastLedger pages = some (deposits, newLedger)
    → lastLedger ≤ newLedger
      ∧ history.window lastLedger newLedger <+: pages.flatMap pageTxs

/-- No amount on the scanned pages makes the scan panic. -/
def ScanAnswer.Readable (monitor : XrplMonitor) (answer : ScanAnswer) : Prop :=
  ∀ entry ∈ answer.returned, (depositOf monitor entry).isSome = true

/-- A response that is no page does not end a scan between two transactions of one ledger. -/
def ScanAnswer.EndsBetweenLedgers (monitor : XrplMonitor) (answer : ScanAnswer) : Prop :=
  answer.ending = .notPage → answer.Readable monitor
  → ∀ last ∈ answer.returned.getLast?, ∀ next ∈ answer.left.head?, ledgerOf last < ledgerOf next

-----------------------------------------------------------------------------------------
-- The walk
-----------------------------------------------------------------------------------------

section Walk

variable {count : Nat} {remaining returned left : List Json}
  {responses : List (Except String Json)} {ending : Ending}

/-- What has been returned and what has not make up the window. -/
theorem Serves.split (serves : Serves count remaining responses returned left ending)
    : remaining = returned ++ left := by
  induction serves with
  | page _ _ _ _ _ _ ih => rw [ih, List.append_assoc]
  | exhausted => exact (List.append_nil _).symm
  | _ => rfl

/-- The cap that a walk leaves: none after the end of the window or a response that is no page,
and the ledger of the next transaction where the walk is broken off after a page.
-/
structure Capped (pages left : List Json) (ending : Ending) : Prop where
  uncapped
    : ending = .exhausted ∨ ending = .notPage → pages ≠ [] ∧ pendingMarker pages = none
  capped
    : ending ≠ .exhausted → ending ≠ .notPage → pages ≠ []
      → ∃ marker next, pendingMarker pages = some marker ∧ next ∈ left.head?
        ∧ (marker.index "ledger").asU64.map UInt64.toNat = some (ledgerOf next)

/-- The pages of a walk list what has been returned. -/
theorem Serves.pages (serves : Serves count remaining responses returned left ending)
    (arrives : ending ≠ .failed)
    : ∃ pages, fetchPages count responses = .ok pages
      ∧ pages.flatMap pageTxs = returned
      ∧ Capped pages left ending := by
  induction serves with
  | maxPages => exact ⟨[], rfl, rfl, ⟨by simp, by simp⟩⟩
  | transport => exact absurd rfl arrives
  | noMembers => exact absurd rfl arrives
  | errorObject taken isError =>
      exact ⟨[], by simp [fetchPages, taken, isError], rfl, ⟨by simp, by simp⟩⟩
  | @notPage _ _ _ result _ taken noError noMarker noTxs =>
      refine ⟨[result], ?_, by simp [noTxs], ⟨fun _ => ⟨by simp, ?_⟩, by simp⟩⟩
      · simp [fetchPages, taken, noError, noMarker]
      · simp [pendingMarker, noMarker]
  | @exhausted _ _ _ result _ taken noError noMarker txs =>
      refine ⟨[result], ?_, by simp [txs], ⟨fun _ => ⟨by simp, ?_⟩, by simp⟩⟩
      · simp [fetchPages, taken, noError, noMarker]
      · simp [pendingMarker, noMarker]
  | @page _ txs next later _ result _ marker returned left ending taken noError marked names
      isPage goesOn ih =>
      obtain ⟨pages, fetched, listed, cap⟩ := ih arrives
      refine ⟨result :: pages, ?_, by simp [isPage, listed], ?_⟩
      · simp [fetchPages, taken, noError, marked, fetched, Except.map]
      · cases pages with
        | nil =>
            -- the walk ends here, so what is left begins with what the marker names
            have isLeft := goesOn.split
            rw [show returned = [] from listed.symm, List.nil_append] at isLeft
            refine ⟨fun ends => absurd rfl (cap.uncapped ends).1, fun _ _ _ => ?_⟩
            exact ⟨marker, next, by simp [pendingMarker, marked], by simp [← isLeft], names⟩
        | cons page others =>
            exact ⟨fun ends => ⟨by simp, (cap.uncapped ends).2⟩,
              fun goes isPage _ => cap.capped goes isPage (by simp)⟩

theorem Serves.fetch_error (serves : Serves count remaining responses returned left ending)
    (fails : ending = .failed)
    : ∃ reason, fetchPages count responses = .error reason := by
  induction serves with
  | transport => exact ⟨_, rfl⟩
  | noMembers panics => simp [fetchPages, panics]
  | page taken noError marked _ _ _ ih =>
      obtain ⟨reason, failed⟩ := ih fails
      refine ⟨reason, ?_⟩
      simp [fetchPages, taken, noError, marked, failed, Except.map]
  | _ => cases fails

theorem Serves.left_eq_nil (serves : Serves count remaining responses returned left ending)
    (ends : ending = .exhausted)
    : left = [] := by
  induction serves with
  | exhausted => rfl
  | page _ _ _ _ _ _ ih => exact ih ends
  | _ => cases ends

end Walk

-----------------------------------------------------------------------------------------
-- The high-water
-----------------------------------------------------------------------------------------

section HighWater

variable {history : EscrowHistory} {lastLedger latest : Nat} {returned left : List Json}

theorem EscrowHistory.mem_window {entry : Json}
    : entry ∈ history.window lastLedger latest
      ↔ entry ∈ history.entries ∧ lastLedger < ledgerOf entry ∧ ledgerOf entry ≤ latest := by
  simp [window]

/-- The two parts of a window lie in its ledgers. -/
theorem mem_parts (split : history.window lastLedger latest = returned ++ left) {entry : Json}
    (member : entry ∈ returned ++ left)
    : entry ∈ history.entries ∧ lastLedger < ledgerOf entry ∧ ledgerOf entry ≤ latest := by
  rw [← split] at member
  exact EscrowHistory.mem_window.mp member

/-- The high-water before the cap is the highest ledger returned. -/
theorem highest_le_iff (split : history.window lastLedger latest = returned ++ left)
    (bound : Nat)
    : returned.foldl raise lastLedger ≤ bound
      ↔ lastLedger ≤ bound ∧ ∀ entry ∈ returned, ledgerOf entry ≤ bound := by
  rw [foldl_raise_le_iff]
  refine and_congr_right (fun _ => forall₂_congr (fun entry member => ?_))
  obtain ⟨index, named, small⟩ := history.located entry
    (mem_parts split (List.mem_append_left _ member)).1
  have value : index.toUInt32.toNat = ledgerOf entry := by
    rw [ledgerOf, named, UInt64.toNat_toUInt32]
    exact Nat.mod_eq_of_lt small
  simp only [named, Option.some.injEq, forall_eq', value]

theorem highest_le_latest (split : history.window lastLedger latest = returned ++ left)
    : returned.foldl raise lastLedger ≤ max lastLedger latest :=
  (highest_le_iff split _).mpr ⟨le_max_left _ _, fun _ member =>
    le_max_of_le_right (mem_parts split (List.mem_append_left _ member)).2.2⟩

/-- The parts of a window are in ledger order, one after the other. -/
theorem parts_ordered (split : history.window lastLedger latest = returned ++ left)
    : returned.Pairwise (fun earlier later => ledgerOf earlier ≤ ledgerOf later)
      ∧ left.Pairwise (fun earlier later => ledgerOf earlier ≤ ledgerOf later)
      ∧ ∀ earlier ∈ returned, ∀ later ∈ left, ledgerOf earlier ≤ ledgerOf later := by
  have ordered : (history.window lastLedger latest).Pairwise
      (fun earlier later => ledgerOf earlier ≤ ledgerOf later) :=
    history.ordered.sublist List.filter_sublist
  rw [split] at ordered
  exact List.pairwise_append.mp ordered

theorem ordered_head_le {txs : List Json} {first entry : Json}
    (ordered : txs.Pairwise (fun earlier later => ledgerOf earlier ≤ ledgerOf later))
    (isFirst : txs.head? = some first) (member : entry ∈ txs)
    : ledgerOf first ≤ ledgerOf entry := by
  obtain ⟨rest, rfl⟩ := List.head?_eq_some_iff.mp isFirst
  rcases List.mem_cons.mp member with rfl | later
  · exact le_rfl
  · exact (List.pairwise_cons.mp ordered).1 entry later

theorem ordered_le_getLast {txs : List Json} {last entry : Json}
    (ordered : txs.Pairwise (fun earlier later => ledgerOf earlier ≤ ledgerOf later))
    (isLast : txs.getLast? = some last) (member : entry ∈ txs)
    : ledgerOf entry ≤ ledgerOf last := by
  obtain ⟨front, rfl⟩ := List.getLast?_eq_some_iff.mp isLast
  rcases List.mem_append.mp member with earlier | isEnd
  · exact (List.pairwise_append.mp ordered).2.2 entry earlier last (List.mem_singleton_self last)
  · rw [List.mem_singleton.mp isEnd]

/-- Up to a bound, a list in order is one of its fronts. -/
theorem filter_prefix {txs : List Json}
    (ordered : txs.Pairwise (fun earlier later => ledgerOf earlier ≤ ledgerOf later))
    (bound : Nat)
    : txs.filter (fun entry => ledgerOf entry ≤ bound) <+: txs := by
  induction txs with
  | nil => exact List.prefix_rfl
  | cons entry rest ih =>
      obtain ⟨first, others⟩ := List.pairwise_cons.mp ordered
      by_cases below : ledgerOf entry ≤ bound
      · rw [List.filter_cons_of_pos (by simpa using below)]
        exact (List.prefix_cons_inj entry).mpr (ih others)
      · have none : (entry :: rest).filter (fun entry => ledgerOf entry ≤ bound) = [] := by
          refine List.filter_eq_nil_iff.mpr (fun other member => ?_)
          rcases List.mem_cons.mp member with rfl | later
          · simpa using below
          · have least := first other later
            simp only [decide_eq_true_eq]
            omega
        rw [none]
        exact List.nil_prefix

/-- The transactions up to a high-water have been returned if no other one is as early. -/
theorem window_prefix_iff (split : history.window lastLedger latest = returned ++ left)
    {newLedger : Nat} (within : newLedger ≤ max lastLedger latest)
    : history.window lastLedger newLedger <+: returned
      ↔ ∀ entry ∈ left, newLedger < ledgerOf entry := by
  have part : history.window lastLedger newLedger
      = returned.filter (fun entry => ledgerOf entry ≤ newLedger)
        ++ left.filter (fun entry => ledgerOf entry ≤ newLedger) := by
    rw [← List.filter_append, ← split, EscrowHistory.window, EscrowHistory.window,
      List.filter_filter]
    refine List.filter_congr (fun entry _ => ?_)
    rw [← Bool.decide_and, decide_eq_decide]
    omega
  obtain ⟨returnedOrdered, -, across⟩ := parts_ordered split
  rw [part]
  constructor
  · intro front entry member
    by_contra early
    have all : returned.filter (fun entry => ledgerOf entry ≤ newLedger) = returned := by
      refine List.filter_eq_self.mpr (fun other inReturned => ?_)
      have before := across other inReturned entry member
      simp only [decide_eq_true_eq]
      omega
    have length := front.length_le
    rw [all, List.length_append] at length
    have some : entry ∈ left.filter (fun entry => ledgerOf entry ≤ newLedger) :=
      List.mem_filter.mpr ⟨member, by simpa using early⟩
    have positive := List.length_pos_of_mem some
    omega
  · intro beyond
    have none : left.filter (fun entry => ledgerOf entry ≤ newLedger) = [] := by
      refine List.filter_eq_nil_iff.mpr (fun entry member => ?_)
      have late := beyond entry member
      simp only [decide_eq_true_eq]
      omega
    rw [none, List.append_nil]
    exact filter_prefix returnedOrdered newLedger

/-- A cap keeps the high-water before the next transaction. -/
theorem capToComplete_lt (newLedger : Nat) {marker next : Json}
    (names : (marker.index "ledger").asU64.map UInt64.toNat = some (ledgerOf next))
    (beyond : lastLedger < ledgerOf next)
    : lastLedger ≤ capToComplete newLedger (some marker) lastLedger
      ∧ capToComplete newLedger (some marker) lastLedger < ledgerOf next := by
  obtain ⟨ledger, named, value⟩ := Option.map_eq_some_iff.mp names
  simp only [capToComplete, named, value]
  omega

end HighWater

-----------------------------------------------------------------------------------------
-- One scan
-----------------------------------------------------------------------------------------

section Scan

variable {monitor : XrplMonitor} {history : EscrowHistory} {lastLedger : Nat}
  {answer : ScanAnswer}

/-- A traversal succeeds if every element is read. -/
theorem isSome_mapM_iff {α β : Type} {read : α → Option β} {items : List α}
    : (items.mapM read).isSome = true ↔ ∀ item ∈ items, (read item).isSome = true := by
  induction items with
  | nil => simp
  | cons item rest ih =>
      rw [List.forall_mem_cons, ← ih, List.mapM_cons]
      cases read item with
      | none => simp
      | some result => cases rest.mapM read <;> simp

/-- The high-water of a walk. -/
def highWater (lastLedger : Nat) (pages : List Json) : Nat :=
  capToComplete ((pages.flatMap pageTxs).foldl raise lastLedger) (pendingMarker pages) lastLedger

/-- A scan reports the high-water of its pages, unless an amount makes it panic. -/
theorem scanPages_eq_some_iff {pages : List Json} {newLedger : Nat} (linked : Linked pages)
    : (∃ deposits, scanPages monitor lastLedger pages = some (deposits, newLedger))
      ↔ newLedger = highWater lastLedger pages
        ∧ ∀ entry ∈ pages.flatMap pageTxs, (depositOf monitor entry).isSome = true := by
  rw [scanPages_eq linked, ← isSome_mapM_iff, highWater]
  cases (pages.flatMap pageTxs).mapM (depositOf monitor) with
  | none => simp
  | some found => simp [eq_comm]

theorem Capped.highWater_eq {pages returned left : List Json} {ending : Ending}
    (cap : Capped pages left ending) (ends : ending = .exhausted ∨ ending = .notPage)
    (listed : pages.flatMap pageTxs = returned)
    : highWater lastLedger pages = returned.foldl raise lastLedger := by
  rw [highWater, (cap.uncapped ends).2, listed]
  rfl

/-- The transactions after the window's start that a walk has not returned lie after its
high-water, unless it ended at a response that is no page.
-/
theorem Capped.beyond {pages returned left : List Json} {ending : Ending} {latest : Nat}
    (cap : Capped pages left ending) (listed : pages.flatMap pageTxs = returned)
    (split : history.window lastLedger latest = returned ++ left)
    (drained : ending = .exhausted → left = []) (isPage : ending ≠ .notPage)
    : lastLedger ≤ highWater lastLedger pages
      ∧ highWater lastLedger pages ≤ max lastLedger latest
      ∧ ∀ entry ∈ left, highWater lastLedger pages < ledgerOf entry := by
  by_cases ends : ending = .exhausted
  · rw [cap.highWater_eq (.inl ends) listed, drained ends]
    exact ⟨((highest_le_iff split _).mp le_rfl).1, highest_le_latest split, by simp⟩
  · by_cases noPages : pages = []
    · subst noPages
      have isFirst : highWater lastLedger [] = lastLedger := rfl
      rw [isFirst]
      refine ⟨le_rfl, le_max_left _ _, fun entry member => ?_⟩
      exact (mem_parts split (List.mem_append_right _ member)).2.1
    · obtain ⟨marker, next, pending, isNext, names⟩ := cap.capped ends isPage noPages
      obtain ⟨-, afterStart, inLatest⟩ :=
        mem_parts split (List.mem_append_right _ (List.mem_of_mem_head? isNext))
      obtain ⟨atLeast, before⟩ := capToComplete_lt
        ((pages.flatMap pageTxs).foldl raise lastLedger) names afterStart
      rw [highWater, pending]
      refine ⟨atLeast, le_max_of_le_right (by omega), fun entry member => ?_⟩
      exact lt_of_lt_of_le before (ordered_head_le (parts_ordered split).2.1 isNext member)

/-- At a response that is no page nothing unreturned lies up to the high-water exactly if the
walk stands between two ledgers.
-/
theorem Capped.notPage_iff {pages returned left : List Json} {ending : Ending} {latest : Nat}
    (cap : Capped pages left ending) (listed : pages.flatMap pageTxs = returned)
    (split : history.window lastLedger latest = returned ++ left) (ends : ending = .notPage)
    : lastLedger ≤ highWater lastLedger pages
      ∧ highWater lastLedger pages ≤ max lastLedger latest
      ∧ ((∀ entry ∈ left, highWater lastLedger pages < ledgerOf entry)
        ↔ ∀ last ∈ returned.getLast?, ∀ next ∈ left.head?, ledgerOf last < ledgerOf next) := by
  obtain ⟨returnedOrdered, leftOrdered, -⟩ := parts_ordered split
  rw [cap.highWater_eq (.inr ends) listed]
  obtain ⟨fromLast, each⟩ := (highest_le_iff split _).mp le_rfl
  refine ⟨fromLast, highest_le_latest split, ?_⟩
  constructor
  · intro beyond last isLast next isNext
    have lastIn := List.mem_of_getLast? isLast
    exact lt_of_le_of_lt (each last lastIn) (beyond next (List.mem_of_mem_head? isNext))
  · intro between entry member
    have positive := (mem_parts split (List.mem_append_right _ member)).2.1
    suffices highestBelow : returned.foldl raise lastLedger ≤ ledgerOf entry - 1 by omega
    refine (highest_le_iff split _).mpr ⟨by omega, fun other inReturned => ?_⟩
    obtain ⟨last, isLast⟩ := Option.isSome_iff_exists.mp
      (List.getLast?_isSome.mpr (List.ne_nil_of_mem inReturned))
    obtain ⟨next, isNext⟩ := Option.isSome_iff_exists.mp
      (List.isSome_head?.mpr (List.ne_nil_of_mem member))
    have apart := between last isLast next isNext
    have beforeLast := ordered_le_getLast returnedOrdered isLast inReturned
    have afterNext := ordered_head_le leftOrdered isNext member
    omega

/-- A served scan is straddle-safe exactly if it does not end within a ledger at a response
that is no page.
-/
theorem ScanAnswer.Served.straddleSafe_iff (served : answer.Served history lastLedger)
    : answer.StraddleSafe monitor history lastLedger ↔ answer.EndsBetweenLedgers monitor := by
  by_cases fails : answer.ending = .failed
  · obtain ⟨reason, failed⟩ := Serves.fetch_error served fails
    constructor
    · intro _ isNotPage
      rw [fails] at isNotPage
      cases isNotPage
    · intro _ pages deposits newLedger fetched
      rw [failed] at fetched
      cases fetched
  obtain ⟨pages, fetched, listed, cap⟩ := Serves.pages served fails
  have split := Serves.split served
  have linked := fetchPages_linked fetched
  have safeIff : answer.StraddleSafe monitor history lastLedger
      ↔ (answer.Readable monitor
        → lastLedger ≤ highWater lastLedger pages
          ∧ history.window lastLedger (highWater lastLedger pages) <+: answer.returned) := by
    constructor
    · intro safe readable
      rw [← listed]
      obtain ⟨deposits, scanned⟩ : ∃ deposits, scanPages monitor lastLedger pages
          = some (deposits, highWater lastLedger pages) :=
        (scanPages_eq_some_iff linked).mpr ⟨rfl, by rw [listed]; exact readable⟩
      exact safe pages deposits _ fetched scanned
    · intro safe pages' deposits newLedger fetched' scanned
      obtain rfl : pages = pages' := Except.ok.inj (fetched.symm.trans fetched')
      obtain ⟨rfl, readable⟩ := (scanPages_eq_some_iff linked).mp ⟨deposits, scanned⟩
      rw [listed] at readable ⊢
      exact safe readable
  rw [safeIff]
  by_cases ends : answer.ending = .notPage
  · obtain ⟨atLeast, within, beyond⟩ := cap.notPage_iff listed split ends
    rw [window_prefix_iff split within, beyond]
    exact ⟨fun safe _ readable => (safe readable).2,
      fun between readable => ⟨atLeast, between ends readable⟩⟩
  · have drained := fun ended => Serves.left_eq_nil served ended
    obtain ⟨atLeast, within, beyond⟩ := cap.beyond listed split drained ends
    refine ⟨fun _ isNotPage => absurd isNotPage ends, fun _ _ => ⟨atLeast, ?_⟩⟩
    exact (window_prefix_iff split within).mpr beyond

end Scan

-----------------------------------------------------------------------------------------
-- Scan after scan
-----------------------------------------------------------------------------------------

/-- The high-water so far, and the transactions on the pages scanned for it. -/
structure ScanCursor where
  lastLedger : Nat
  visited : List Json

/-- Each scan starts from the high-water of the one before. -/
def ScanCursor.step (monitor : XrplMonitor) (cursor : ScanCursor) (answer : ScanAnswer)
    : ScanCursor :=
  match fetchPages maxPages answer.responses with
  | .error _ => cursor
  | .ok pages =>
      match scanPages monitor cursor.lastLedger pages with
      | none => cursor
      | some (_, newLedger) => ⟨newLedger, cursor.visited ++ pages.flatMap pageTxs⟩

/-- All transactions between the start and the cursor have been on a scanned page. -/
structure ScanCursor.Visits (history : EscrowHistory) (start : Nat) (cursor : ScanCursor)
    : Prop where
  forward : start ≤ cursor.lastLedger
  visited
    : ∀ entry ∈ history.entries, start < ledgerOf entry → ledgerOf entry ≤ cursor.lastLedger
      → entry ∈ cursor.visited

section Scans

variable {monitor : XrplMonitor} {history : EscrowHistory} {start : Nat} {cursor : ScanCursor}
  {answer : ScanAnswer}

theorem ScanCursor.Visits.step (visits : cursor.Visits history start)
    (served : answer.Served history cursor.lastLedger)
    (between : answer.EndsBetweenLedgers monitor)
    : (cursor.step monitor answer).Visits history start := by
  have safe := served.straddleSafe_iff.mpr between
  unfold ScanCursor.step
  cases fetched : fetchPages maxPages answer.responses with
  | error reason => exact visits
  | ok pages =>
      dsimp only
      cases scanned : scanPages monitor cursor.lastLedger pages with
      | none => exact visits
      | some result =>
          obtain ⟨deposits, newLedger⟩ := result
          obtain ⟨above, listed⟩ := safe pages deposits newLedger fetched scanned
          refine ⟨visits.forward.trans above, fun entry member after upTo => ?_⟩
          by_cases old : ledgerOf entry ≤ cursor.lastLedger
          · exact List.mem_append_left _ (visits.visited entry member after old)
          · have inWindow := EscrowHistory.mem_window.mpr ⟨member, not_le.mp old, upTo⟩
            exact List.mem_append_right _ (listed.subset inWindow)

/-- A scan that exhausts the history leaves nothing behind. -/
theorem ScanCursor.Visits.exhausted (visits : cursor.Visits history start)
    (served : answer.Served history cursor.lastLedger) (ends : answer.ending = .exhausted)
    (readable : answer.Readable monitor)
    (covers : ∀ entry ∈ history.entries, ledgerOf entry ≤ answer.latest)
    : ∀ entry ∈ history.entries, start < ledgerOf entry
      → entry ∈ (cursor.step monitor answer).visited := by
  obtain ⟨pages, fetched, listed, -⟩ := Serves.pages served (by rw [ends]; decide)
  have window := Serves.split served
  rw [Serves.left_eq_nil served ends, List.append_nil] at window
  obtain ⟨deposits, scanned⟩ : ∃ deposits, scanPages monitor cursor.lastLedger pages
      = some (deposits, highWater cursor.lastLedger pages) :=
    (scanPages_eq_some_iff (fetchPages_linked fetched)).mpr
      ⟨rfl, by rw [listed]; exact readable⟩
  intro entry member after
  simp only [ScanCursor.step, fetched, scanned, listed, ← window]
  by_cases old : ledgerOf entry ≤ cursor.lastLedger
  · exact List.mem_append_left _ (visits.visited entry member after old)
  · exact List.mem_append_right _
      (EscrowHistory.mem_window.mpr ⟨member, not_le.mp old, covers entry member⟩)

end Scans

/-- A scan is straddle-safe exactly if no response that is no page ends it within a ledger. In a
run of such scans every transaction up to the cursor has been on a scanned page, and all of
the history once a scan exhausts it.
-/
theorem scan_straddle_safe_iff (monitor : XrplMonitor) (history : EscrowHistory)
    : (∀ (lastLedger : Nat) (answer : ScanAnswer),
        answer.Served history lastLedger
        → (answer.StraddleSafe monitor history lastLedger
          ↔ answer.EndsBetweenLedgers monitor))
      ∧ ∀ (start : Nat) (answers : List ScanAnswer) (last : ScanAnswer),
          Along (ScanCursor.step monitor)
            (fun cursor answer =>
              answer.Served history cursor.lastLedger ∧ answer.EndsBetweenLedgers monitor)
            ⟨start, []⟩ (answers ++ [last])
          → ((answers ++ [last]).foldl (ScanCursor.step monitor) ⟨start, []⟩).Visits history start
            ∧ (last.ending = .exhausted
              → last.Readable monitor
              → (∀ entry ∈ history.entries, ledgerOf entry ≤ last.latest)
              → ∀ entry ∈ history.entries, start < ledgerOf entry
                → entry
                  ∈ ((answers ++ [last]).foldl (ScanCursor.step monitor) ⟨start, []⟩).visited) := by
  refine ⟨fun lastLedger answer served => served.straddleSafe_iff, ?_⟩
  intro start answers last along
  have initial : ScanCursor.Visits history start ⟨start, []⟩ :=
    ⟨le_rfl, fun entry _ after upTo => absurd upTo (not_le.mpr after)⟩
  obtain ⟨front, ⟨served, between⟩, -⟩ := Along.append_iff.mp along
  have visits
      : ScanCursor.Visits history start (answers.foldl (ScanCursor.step monitor) ⟨start, []⟩) :=
    front.invariant (fun _ _ visits given => visits.step given.1 given.2) initial
  rw [List.foldl_append]
  exact ⟨visits.step served between, fun ends readable covers =>
    visits.exhausted served ends readable covers⟩

-----------------------------------------------------------------------------------------
-- Two transactions of one ledger
-----------------------------------------------------------------------------------------

/-- A change of the signer list in ledger 101. -/
def signerListSet : Json :=
  .object
    [("tx", .object
        [("TransactionType", .string "SignerListSet"), ("Account", .string "rEscrow"),
          ("hash", .string "CD"), ("ledger_index", .number (.posInt 101))]),
      ("meta", .object [("TransactionResult", .string "tesSUCCESS")])]

/-- The change of the signer list, and a deposit in the same ledger. -/
def straddledHistory : EscrowHistory where
  entries := [signerListSet, sampleEntry]
  located := by
    intro entry member
    rcases List.mem_pair.mp member with rfl | rfl
    · exact ⟨101, rfl, by decide⟩
    · exact ⟨101, rfl, by decide⟩
  ordered := List.pairwise_pair.mpr (by decide +kernel)

/-- A page with the change only, whose marker is in its ledger. -/
def firstPage : Json :=
  .object
    [("result",
      .object
        [("transactions", .array [signerListSet]),
          ("marker", .object [("ledger", .number (.posInt 101)), ("seq", .number (.posInt 1))])])]

def lastPage : Json := .object [("result", .object [("transactions", .array [sampleEntry])])]

/-- Both pages arrive. -/
def bothPages : ScanAnswer where
  latest := 101
  responses := [.ok firstPage, .ok lastPage]
  returned := [signerListSet, sampleEntry]
  left := []
  ending := .exhausted

theorem straddledHistory_window
    : straddledHistory.window 100 101 = [signerListSet] ++ sampleEntry :: [] := by
  refine List.filter_eq_self.mpr (fun entry member => ?_)
  rcases List.mem_pair.mp member with rfl | rfl
  · decide +kernel
  · decide +kernel

theorem bothPages_served : bothPages.Served straddledHistory 100 := by
  unfold ScanAnswer.Served
  rw [show bothPages.latest = 101 from rfl, straddledHistory_window]
  exact .page rfl rfl rfl rfl rfl (.exhausted rfl rfl rfl rfl)

theorem scan_straddle_safe_bothPages
    : bothPages.StraddleSafe sampleMonitor straddledHistory 100
      ∧ ∀ entry ∈ straddledHistory.entries,
          entry
          ∈ (([] ++ [bothPages]).foldl (ScanCursor.step sampleMonitor) ⟨100, []⟩).visited := by
  obtain ⟨safeIff, scans⟩ := scan_straddle_safe_iff sampleMonitor straddledHistory
  have between : bothPages.EndsBetweenLedgers sampleMonitor := fun isNotPage => by cases isNotPage
  refine ⟨(safeIff 100 bothPages bothPages_served).mpr between, fun entry member => ?_⟩
  obtain ⟨-, exhausted⟩ := scans 100 [] bothPages ⟨⟨bothPages_served, between⟩, trivial⟩
  have readable : bothPages.Readable sampleMonitor := by
    intro entry member
    rcases List.mem_pair.mp member with rfl | rfl
    · decide +kernel
    · decide +kernel
  have ledgers : ∀ entry ∈ straddledHistory.entries, ledgerOf entry = 101 := by
    intro entry member
    rcases List.mem_pair.mp member with rfl | rfl
    · rfl
    · rfl
  refine exhausted rfl readable (fun entry member => (ledgers entry member).le) entry member ?_
  rw [ledgers entry member]
  decide

/-- The second response has no result. -/
def emptyResponse : ScanAnswer where
  latest := 101
  responses := [.ok firstPage, .ok (.object [])]
  returned := [signerListSet]
  left := [sampleEntry]
  ending := .notPage

/-- After a response without a result the high-water is the ledger that the page before it
ended in, and the deposit in that ledger has not been on a page.
-/
theorem empty_response_skips_deposit
    : emptyResponse.Served straddledHistory 100
      ∧ fetchPages maxPages emptyResponse.responses = .ok [firstPage.index "result", .null]
      ∧ scanPages sampleMonitor 100 [firstPage.index "result", .null] = some ([], 101)
      ∧ sampleEntry ∈ straddledHistory.window 100 101
      ∧ sampleEntry ∉ [firstPage.index "result", .null].flatMap pageTxs
      ∧ ¬ emptyResponse.StraddleSafe sampleMonitor straddledHistory 100 := by
  have fetched : fetchPages maxPages emptyResponse.responses
      = .ok [firstPage.index "result", .null] := by rfl
  have scanned : scanPages sampleMonitor 100 [firstPage.index "result", .null]
      = some ([], 101) := by decide +kernel
  have inWindow : sampleEntry ∈ straddledHistory.window 100 101 := by
    rw [straddledHistory_window]
    exact List.mem_append_right _ (List.mem_singleton_self sampleEntry)
  have unseen : sampleEntry ∉ [firstPage.index "result", .null].flatMap pageTxs := by
    intro listed
    have same : sampleEntry = signerListSet := List.mem_singleton.mp listed
    have hashes := congrArg (fun entry => ((entry.index "tx").index "hash").asStr) same
    exact absurd hashes (by decide +kernel)
  refine ⟨?_, fetched, scanned, inWindow, unseen, fun safe => ?_⟩
  · unfold ScanAnswer.Served
    rw [show emptyResponse.latest = 101 from rfl, straddledHistory_window]
    exact .page rfl rfl rfl rfl rfl (.notPage rfl rfl rfl rfl)
  · exact unseen ((safe _ _ _ fetched scanned).2.subset inWindow)

end DepositMonitor

end PerpDex
