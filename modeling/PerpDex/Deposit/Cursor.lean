import PerpDex.Deposit.Monitor

/-! What the deposit loop leaves behind.
A walk over the pages of a faithful node lists every ledger of the window up to a pending
marker completely, so a deposit is behind the cursor only after it was offered once. It may
still be unsettled: the cursor does not wait for the credit calls.
-/

namespace PerpDex

namespace DepositMonitor

/-- The history of the escrow, ledger by ledger; each entry names the ledger it is in. -/
structure History where
  entries : Nat → List Json
  located
    : ∀ ledger, ∀ entry ∈ entries ledger,
        (entryLedger entry).map UInt64.toNat = some ledger ∧ ledger < 2 ^ 32

/-- The marker a walk was left with. -/
def pendingMarker (pages : List Json) : Option Json := pages.getLast?.bind pageMarker

/-- A walk from a faithful node: all entries of the ledgers after `lastLedger` up to
`complete`, and then those of the next ledger up to the marker. Without a marker the window
is exhausted.
-/
structure FaithfulWalk (history : History) (lastLedger : Nat) (pages : List Json)
    (complete : Nat) (tail : List Json) : Prop where
  forward : lastLedger ≤ complete
  bounded : complete < 2 ^ 32
  listed
    : pages.flatMap pageTxs
      = (List.range' (lastLedger + 1) (complete - lastLedger)).flatMap history.entries ++ tail
  exhausted : pendingMarker pages = none → tail = []
  marked
    : ∀ marker, pendingMarker pages = some marker
      → (marker.index "ledger").asU64.map UInt64.toNat = some (complete + 1)
        ∧ tail <+: history.entries (complete + 1)

/-- The node answers a tick faithfully, if it answers. -/
def DepositLoop.Answered (history : History) (loop : DepositLoop) (tick : Tick) : Prop :=
  ∀ pages, fetchPages maxPages tick.responses = .ok pages →
    ∃ complete tail, FaithfulWalk history loop.lastLedger pages complete tail

/-- Every deposit in a ledger the cursor has moved past has got a verdict. -/
structure DepositLoop.NoneLost (monitor : XrplMonitor) (history : History) (first : Nat)
    (loop : DepositLoop) : Prop where
  forward : first ≤ loop.lastLedger
  settled
    : ∀ ledger, first < ledger → ledger ≤ loop.lastLedger
      → ∀ entry ∈ history.entries ledger, ∀ deposit,
          depositOf monitor entry = some (some deposit) → deposit ∈ loop.settled

/-- The entry stands before the ledger of the pending marker, if there is one. -/
def BeforeMarker (pages : List Json) (entry : Json) : Prop :=
  ∀ marker ledger index,
    pendingMarker pages = some marker → (marker.index "ledger").asU64 = some ledger →
    entryLedger entry = some index → index.toNat < ledger.toNat

/-- Every deposit listed in a ledger that the scan has seen completely got a verdict before
or gets one now.
-/
def DepositLoop.Settles (monitor : XrplMonitor) (loop : DepositLoop) (tick : Tick) : Prop :=
  ∀ pages,
    fetchPages maxPages tick.responses = .ok pages →
    (scanPages monitor loop.lastLedger pages).isSome →
    ∀ entry ∈ pages.flatMap pageTxs, BeforeMarker pages entry →
    ∀ deposit, depositOf monitor entry = some (some deposit) →
    deposit ∈ loop.settled ∨ hasVerdict (tick.credit deposit) = true

section Scan

variable {monitor : XrplMonitor}

/-- The inner loop: the deposits of the entries in order, and the highest ledger. -/
theorem scanTxs_eq (txs : List Json) (deposits : List DepositEvent) (newLedger : Nat)
    : scanTxs monitor txs deposits newLedger
      = (txs.mapM (depositOf monitor)).map
          (fun found => (deposits ++ found.reduceOption, txs.foldl raise newLedger)) := by
  induction txs generalizing deposits newLedger with
  | nil => simp [scanTxs]
  | cons entry rest ih =>
      cases read : depositOf monitor entry with
      | none => simp [scanTxs, read]
      | some found =>
          cases found with
          | none =>
              simp only [scanTxs, read, ih, List.mapM_cons, Option.bind_eq_bind,
                Option.bind_some, List.foldl_cons]
              cases rest.mapM (depositOf monitor) <;> simp [List.reduceOption_cons_of_none]
          | some deposit =>
              simp only [scanTxs, read, ih, List.mapM_cons, Option.bind_eq_bind,
                Option.bind_some, List.foldl_cons]
              cases rest.mapM (depositOf monitor) <;> simp [List.reduceOption_cons_of_some]

/-- Every page but the last has a marker. -/
def Linked (pages : List Json) : Prop :=
  ∀ page ∈ pages.dropLast, (pageMarker page).isSome

/-- Only a page with a marker is followed by another one, by induction on the pages still
allowed.
-/
theorem fetchPages_linked {count : Nat} {responses : List (Except String Json)}
    {pages : List Json} (fetched : fetchPages count responses = .ok pages)
    : Linked pages := by
  induction count generalizing responses pages with
  | zero =>
      simp only [fetchPages, Except.ok.injEq] at fetched
      simp [Linked, ← fetched]
  | succ count ih =>
      cases responses with
      | nil => cases fetched
      | cons first rest =>
          cases first with
          | error e => cases fetched
          | ok resp =>
              simp only [fetchPages] at fetched
              split at fetched
              case h_1 => cases fetched
              case h_2 result _ =>
                split_ifs at fetched
                · simp [Linked, ← Except.ok.inj fetched]
                · split at fetched
                  · simp [Linked, ← Except.ok.inj fetched]
                  · rename_i marker present
                    cases later : fetchPages count rest with
                    | error e => simp [later, Except.map] at fetched
                    | ok others =>
                        simp only [later, Except.map, Except.ok.injEq] at fetched
                        have linked := ih later
                        rw [← fetched]
                        intro page member
                        cases others with
                        | nil => simp at member
                        | cons next others =>
                            rw [List.dropLast_cons_of_ne_nil (by simp)] at member
                            rcases List.mem_cons.mp member with rfl | deeper
                            · simp [present]
                            · exact linked page deeper

/-- The outer loop over linked pages reads all of them. -/
theorem scanFrom_eq {pages : List Json} (linked : Linked pages) (deposits : List DepositEvent)
    (newLedger : Nat) (pending : Option Json)
    : scanFrom monitor pages deposits newLedger pending
      = ((pages.flatMap pageTxs).mapM (depositOf monitor)).map (fun found =>
          (deposits ++ found.reduceOption, (pages.flatMap pageTxs).foldl raise newLedger,
            if pages = [] then pending else pendingMarker pages)) := by
  induction pages generalizing deposits newLedger pending with
  | nil => simp [scanFrom]
  | cons page rest ih =>
      have later : Linked rest := by
        intro other member
        cases rest with
        | nil => simp at member
        | cons next others =>
            refine linked other ?_
            rw [List.dropLast_cons_of_ne_nil (by simp)]
            exact List.mem_cons_of_mem _ member
      simp only [scanFrom, scanTxs_eq, List.flatMap_cons, List.mapM_append, List.foldl_append]
      cases (pageTxs page).mapM (depositOf monitor) with
      | none => simp
      | some found =>
          cases rest with
          | nil =>
              cases marked : pageMarker page with
              | none => simp [pendingMarker, marked]
              | some marker => simp [scanFrom, pendingMarker, marked]
          | cons next others =>
              obtain ⟨marker, marked⟩ := Option.isSome_iff_exists.mp
                (linked page (by rw [List.dropLast_cons_of_ne_nil (by simp)]; simp))
              simp only [Option.map_some, marked, ih later]
              cases (List.flatMap pageTxs (next :: others)).mapM (depositOf monitor) with
              | none => simp
              | some more => simp [pendingMarker, List.reduceOption_append]

theorem scanPages_eq {pages : List Json} (linked : Linked pages) (lastLedger : Nat)
    : scanPages monitor lastLedger pages
      = ((pages.flatMap pageTxs).mapM (depositOf monitor)).map (fun found =>
          (found.reduceOption,
            capToComplete ((pages.flatMap pageTxs).foldl raise lastLedger)
              (pendingMarker pages) lastLedger)) := by
  rw [scanPages, scanFrom_eq linked, Option.map_map]
  cases pages with
  | nil => rfl
  | cons page rest => simp [Function.comp_def]

/-- What a traversal yields, element by element. -/
theorem mem_of_mapM {α β : Type} {read : α → Option β} {items : List α} {results : List β}
    (traversed : items.mapM read = some results) {result : β}
    : result ∈ results ↔ ∃ item ∈ items, read item = some result := by
  induction items generalizing results with
  | nil =>
      simp only [List.mapM_nil, Option.pure_def, Option.some.injEq] at traversed
      simp [← traversed]
  | cons item rest ih =>
      simp only [List.mapM_cons, Option.bind_eq_bind, Option.bind_eq_some_iff,
        Option.pure_def, Option.some.injEq] at traversed
      obtain ⟨first, readFirst, others, later, rfl⟩ := traversed
      rw [List.mem_cons, ih later]
      simp [readFirst, eq_comm]

/-- The deposits of a scan are those of the entries it has read. -/
theorem mem_scanPages {pages : List Json} (linked : Linked pages) {lastLedger newLedger : Nat}
    {deposits : List DepositEvent}
    (scanned : scanPages monitor lastLedger pages = some (deposits, newLedger))
    {deposit : DepositEvent}
    : deposit ∈ deposits
      ↔ ∃ entry ∈ pages.flatMap pageTxs, depositOf monitor entry = some (some deposit) := by
  rw [scanPages_eq linked] at scanned
  obtain ⟨found, traversed, same⟩ := Option.map_eq_some_iff.mp scanned
  rw [← (Prod.mk.inj same).1, List.reduceOption_mem_iff, mem_of_mapM traversed]

end Scan

section Walk

/-- The high-water is within a bound exactly if it started there and every entry is. -/
theorem foldl_raise_le_iff (txs : List Json) (newLedger bound : Nat)
    : txs.foldl raise newLedger ≤ bound
      ↔ newLedger ≤ bound
        ∧ ∀ entry ∈ txs, ∀ index, entryLedger entry = some index
          → index.toUInt32.toNat ≤ bound := by
  induction txs generalizing newLedger with
  | nil => simp
  | cons entry rest ih =>
      rw [List.foldl_cons, ih, List.forall_mem_cons]
      cases named : entryLedger entry with
      | none => simp [raise, named]
      | some index =>
          simp only [raise, named, Option.some.injEq, forall_eq', max_le_iff]
          exact and_assoc

variable {history : History} {lastLedger complete : Nat} {pages tail : List Json}

/-- The number an entry of the history carries. -/
theorem History.index_eq (history : History) {ledger : Nat} {entry : Json} {index : UInt64}
    (member : entry ∈ history.entries ledger) (named : entryLedger entry = some index)
    : index.toNat = ledger ∧ index.toUInt32.toNat = ledger := by
  obtain ⟨same, small⟩ := history.located ledger entry member
  rw [named, Option.map_some, Option.some.injEq] at same
  refine ⟨same, ?_⟩
  rw [UInt64.toNat_toUInt32, same]
  exact Nat.mod_eq_of_lt small

theorem mem_window {entry : Json}
    : entry ∈ (List.range' (lastLedger + 1) (complete - lastLedger)).flatMap history.entries
      ↔ ∃ ledger, lastLedger < ledger ∧ ledger ≤ complete ∧ entry ∈ history.entries ledger := by
  simp only [List.mem_flatMap, List.mem_range'_1]
  constructor
  · intro given
    rcases given with ⟨ledger, ⟨lower, upper⟩, member⟩
    exact ⟨ledger, by omega, by omega, member⟩
  · intro given
    rcases given with ⟨ledger, lower, upper, member⟩
    exact ⟨ledger, ⟨by omega, by omega⟩, member⟩

/-- The entries before the marker are those of the completed ledgers. -/
theorem FaithfulWalk.mem_iff (walk : FaithfulWalk history lastLedger pages complete tail)
    {entry : Json}
    : entry ∈ pages.flatMap pageTxs ∧ BeforeMarker pages entry
      ↔ ∃ ledger, lastLedger < ledger ∧ ledger ≤ complete
          ∧ entry ∈ history.entries ledger := by
  rw [walk.listed, List.mem_append, mem_window]
  constructor
  · intro given
    rcases given with ⟨inWindow | inTail, before⟩
    · exact inWindow
    · cases pending : pendingMarker pages with
      | none =>
          rw [walk.exhausted pending] at inTail
          exact absurd inTail List.not_mem_nil
      | some marker =>
          obtain ⟨marks, front⟩ := walk.marked marker pending
          obtain ⟨ledger, named, value⟩ := Option.map_eq_some_iff.mp marks
          have member := front.subset inTail
          obtain ⟨index, carries, same⟩ :=
            Option.map_eq_some_iff.mp (history.located _ entry member).1
          have below := before marker ledger index pending named carries
          omega
  · intro given
    refine ⟨Or.inl given, ?_⟩
    rcases given with ⟨ledger, lower, upper, member⟩
    intro marker marks index pending named carries
    obtain ⟨value, namedAgain, isNext⟩ := Option.map_eq_some_iff.mp (walk.marked marker pending).1
    rw [named] at namedAgain
    rw [Option.some.inj namedAgain, isNext, (history.index_eq member carries).1]
    omega

/-- The cursor a scan reports: it stays among the completed ledgers, and no completed ledger
with an entry is beyond it.
-/
theorem FaithfulWalk.cursor (walk : FaithfulWalk history lastLedger pages complete tail)
    : lastLedger
        ≤ capToComplete ((pages.flatMap pageTxs).foldl raise lastLedger) (pendingMarker pages)
            lastLedger
      ∧ capToComplete ((pages.flatMap pageTxs).foldl raise lastLedger) (pendingMarker pages)
          lastLedger
        ≤ complete
      ∧ ∀ ledger, lastLedger < ledger → ledger ≤ complete → history.entries ledger ≠ [] →
          ledger
          ≤ capToComplete ((pages.flatMap pageTxs).foldl raise lastLedger)
              (pendingMarker pages) lastLedger := by
  obtain ⟨fromLast, seen⟩ :=
    (foldl_raise_le_iff (pages.flatMap pageTxs) lastLedger _).mp le_rfl
  have reaches : ∀ ledger, lastLedger < ledger → ledger ≤ complete
      → history.entries ledger ≠ []
      → ledger ≤ (pages.flatMap pageTxs).foldl raise lastLedger := by
    intro ledger lower upper nonempty
    obtain ⟨entry, member⟩ := List.exists_mem_of_ne_nil _ nonempty
    obtain ⟨index, named, _⟩ := Option.map_eq_some_iff.mp (history.located _ entry member).1
    have listed := (walk.mem_iff.mpr ⟨ledger, lower, upper, member⟩).1
    have raised := seen entry listed index named
    rw [(history.index_eq member named).2] at raised
    exact raised
  have forward := walk.forward
  have bounded := walk.bounded
  cases pending : pendingMarker pages with
  | none =>
      refine ⟨fromLast, ?_, reaches⟩
      show (pages.flatMap pageTxs).foldl raise lastLedger ≤ complete
      rw [foldl_raise_le_iff]
      refine ⟨walk.forward, ?_⟩
      intro entry listed index named
      have before : BeforeMarker pages entry :=
        fun marker _ _ present => by rw [pending] at present; cases present
      obtain ⟨ledger, _, upper, member⟩ := walk.mem_iff.mp ⟨listed, before⟩
      rw [(history.index_eq member named).2]
      exact upper
  | some marker =>
      obtain ⟨marks, named, next⟩ := Option.map_eq_some_iff.mp (walk.marked marker pending).1
      simp only [capToComplete, named]
      refine ⟨by omega, by omega, ?_⟩
      intro ledger lower upper nonempty
      have reached := reaches ledger lower upper nonempty
      omega

end Walk

section Loop

variable {monitor : XrplMonitor} {history : History} {first : Nat} {loop : DepositLoop}
  {tick : Tick}

/-- The cursor a scan reports, in terms of the transactions it has seen. -/
theorem scanPages_cursor {pages : List Json} {lastLedger newLedger : Nat}
    {deposits : List DepositEvent} (linked : Linked pages)
    (scanned : scanPages monitor lastLedger pages = some (deposits, newLedger))
    : newLedger
      = capToComplete ((pages.flatMap pageTxs).foldl raise lastLedger) (pendingMarker pages)
          lastLedger := by
  rw [scanPages_eq linked] at scanned
  obtain ⟨_, _, same⟩ := Option.map_eq_some_iff.mp scanned
  exact (Prod.mk.inj same).2.symm

/-- A tick whose scan succeeds notes the deposits with a verdict and takes over the cursor. -/
theorem DepositLoop.step_scanned {pages : List Json} {newLedger : Nat}
    {deposits : List DepositEvent} (fetched : fetchPages maxPages tick.responses = .ok pages)
    (scanned : scanPages monitor loop.lastLedger pages = some (deposits, newLedger))
    (above : loop.lastLedger ≤ newLedger)
    : loop.step monitor tick
      = { lastLedger := newLedger
          settled :=
            loop.settled
            ++ deposits.filter (fun deposit => hasVerdict (tick.credit deposit)) } := by
  simp only [DepositLoop.step, fetched, scanned]
  split_ifs with less
  · rfl
  · rw [le_antisymm above (not_lt.mp less)]

/-- Once the cursor moves on, only the deposits it passes are left to get a verdict. -/
theorem DepositLoop.NoneLost.advanced_iff (kept : loop.NoneLost monitor history first)
    {next : DepositLoop} (above : loop.lastLedger ≤ next.lastLedger)
    (grows : loop.settled ⊆ next.settled)
    : next.NoneLost monitor history first
      ↔ ∀ ledger, loop.lastLedger < ledger → ledger ≤ next.lastLedger
          → ∀ entry ∈ history.entries ledger, ∀ deposit,
              depositOf monitor entry = some (some deposit) → deposit ∈ next.settled := by
  constructor
  · exact fun after ledger lower => after.settled ledger (kept.forward.trans_lt lower)
  · intro settles
    refine ⟨kept.forward.trans above, fun ledger beyond reached entry member deposit read => ?_⟩
    by_cases old : ledger ≤ loop.lastLedger
    · exact grows (kept.settled ledger beyond old entry member deposit read)
    · exact settles ledger (not_le.mp old) reached entry member deposit read

/-- A tick loses no deposit exactly if every deposit it passes has a verdict. -/
theorem DepositLoop.NoneLost.step_iff (answered : loop.Answered history tick)
    (kept : loop.NoneLost monitor history first)
    : (loop.step monitor tick).NoneLost monitor history first
      ↔ loop.Settles monitor tick := by
  cases fetched : fetchPages maxPages tick.responses with
  | error e =>
      simp only [DepositLoop.step, DepositLoop.Settles, fetched]
      exact ⟨fun _ _ given => (by cases given), fun _ => kept⟩
  | ok pages =>
      have linked := fetchPages_linked fetched
      obtain ⟨complete, tail, walk⟩ := answered pages fetched
      cases scanned : scanPages monitor loop.lastLedger pages with
      | none =>
          simp only [DepositLoop.step, DepositLoop.Settles, fetched, scanned]
          refine ⟨fun _ other given scans => ?_, fun _ => kept⟩
          rw [← Except.ok.inj given, scanned] at scans
          cases scans
      | some result =>
          obtain ⟨deposits, newLedger⟩ := result
          have settlesIff : loop.Settles monitor tick
              ↔ ∀ entry ∈ pages.flatMap pageTxs, BeforeMarker pages entry →
                  ∀ deposit, depositOf monitor entry = some (some deposit) →
                  deposit ∈ loop.settled ∨ hasVerdict (tick.credit deposit) = true := by
            simp only [DepositLoop.Settles, fetched, Except.ok.injEq, forall_eq', scanned,
              Option.isSome_some, forall_const]
          obtain ⟨above, within, reaches⟩ := walk.cursor
          rw [← scanPages_cursor linked scanned] at above within reaches
          rw [settlesIff, DepositLoop.step_scanned fetched scanned above]
          have settledIff : ∀ deposit, (∃ entry ∈ pages.flatMap pageTxs,
                depositOf monitor entry = some (some deposit)) →
              (deposit ∈ loop.settled
                  ++ deposits.filter (fun deposit => hasVerdict (tick.credit deposit))
                ↔ deposit ∈ loop.settled ∨ hasVerdict (tick.credit deposit) = true) := by
            intro deposit found
            have offered := (mem_scanPages linked scanned).mpr found
            simp [List.mem_filter, offered]
          rw [kept.advanced_iff above (List.subset_append_left _ _)]
          constructor
          · intro after entry listed before deposit read
            obtain ⟨ledger, lower, upper, member⟩ := walk.mem_iff.mp ⟨listed, before⟩
            have reached := reaches ledger lower upper (List.ne_nil_of_mem member)
            exact (settledIff deposit ⟨entry, listed, read⟩).mp
              (after ledger lower reached entry member deposit read)
          · intro settles ledger lower reached entry member deposit read
            obtain ⟨listed, before⟩ :=
              walk.mem_iff.mpr ⟨ledger, lower, reached.trans within, member⟩
            exact (settledIff deposit ⟨entry, listed, read⟩).mpr
              (settles entry listed before deposit read)

end Loop

/-- In every run against a faithful node, whatever requests and credit calls fail, every
deposit in a ledger that the cursor has moved past has a verdict of the enclave, exactly if
in every tick the deposits listed in completed ledgers had one before or get one.
-/
theorem deposit_loop_loses_none_iff (monitor : XrplMonitor) (history : History) (first : Nat)
    {ticks : List Tick}
    (answered
      : Along (DepositLoop.step monitor) (DepositLoop.Answered history) ⟨first, []⟩ ticks)
    : (∀ front, front <+: ticks →
        (front.foldl (DepositLoop.step monitor) ⟨first, []⟩).NoneLost monitor history first)
      ↔ Along (DepositLoop.step monitor) (DepositLoop.Settles monitor) ⟨first, []⟩ ticks := by
  have initial : DepositLoop.NoneLost monitor history first ⟨first, []⟩ := by
    refine ⟨le_rfl, ?_⟩
    intro ledger beyond reached
    exact absurd reached (not_le.mpr beyond)
  exact Along.states_iff_under
    (fun _ _ answeredTick kept => DepositLoop.NoneLost.step_iff answeredTick kept) initial
    answered

/-- A successful payment of one XRP to the escrow in ledger 101. -/
def sampleEntry : Json :=
  .object
    [("tx", .object
        [("TransactionType", .string "Payment"), ("Account", .string "rDepositor"),
          ("Destination", .string "rEscrow"), ("Amount", .string "1000000"),
          ("hash", .string "AB"), ("ledger_index", .number (.posInt 101))]),
      ("meta", .object [("TransactionResult", .string "tesSUCCESS")])]

def sampleMonitor : XrplMonitor where
  escrowAddress := "rEscrow"
  operatorCapital := []
  xrpText := fun drops => if drops = 1_000_000 then "1.00000000" else "0.00000000"

/-- The payment is the only entry. -/
def sampleHistory : History where
  entries := fun ledger => if ledger = 101 then [sampleEntry] else []
  located := by
    intro ledger entry member
    split_ifs at member with isLedger
    · rw [List.mem_singleton.mp member, isLedger]
      exact ⟨rfl, by norm_num⟩
    · exact absurd member List.not_mem_nil

/-- The node lists the payment; the enclave gives the reply. -/
def sampleTick (reply : EnclaveReply) : Tick where
  responses := [.ok (.object [("result", .object [("transactions", .array [sampleEntry])])])]
  credit := fun _ => reply

theorem sampleTick_answered (reply : EnclaveReply)
    : Along (DepositLoop.step sampleMonitor) (DepositLoop.Answered sampleHistory) ⟨100, []⟩
        [sampleTick reply] := by
  refine ⟨?_, trivial⟩
  intro pages fetched
  rw [← Except.ok.inj fetched]
  refine ⟨101, [], by norm_num, by norm_num, rfl, fun _ => rfl, ?_⟩
  intro marker pending
  cases pending

/-- A payment that is refused with a code may be left behind. -/
theorem deposit_loop_loses_none_refused
    : ([sampleTick (.error "HTTP 400: deposit refused (rc=-86)")].foldl
        (DepositLoop.step sampleMonitor) ⟨100, []⟩).NoneLost sampleMonitor sampleHistory
        100 := by
  refine (deposit_loop_loses_none_iff sampleMonitor sampleHistory 100
    (sampleTick_answered _)).mpr ⟨?_, trivial⟩ _ (List.prefix_refl _)
  have refused : hasVerdict (.error "HTTP 400: deposit refused (rc=-86)") = true := by
    decide +kernel
  exact fun _ _ _ _ _ _ _ _ => Or.inr refused

/-- A credit call that fails on the way loses the payment: the cursor moves past its ledger
all the same.
-/
theorem failed_credit_loses_deposit
    : Along (DepositLoop.step sampleMonitor) (DepositLoop.Answered sampleHistory) ⟨100, []⟩
        [sampleTick (.error "error sending request")]
      ∧ ¬ ([sampleTick (.error "error sending request")].foldl (DepositLoop.step sampleMonitor)
          ⟨100, []⟩).NoneLost sampleMonitor sampleHistory 100 := by
  refine ⟨sampleTick_answered _, fun kept => ?_⟩
  have reached : 101 ≤ ([sampleTick (.error "error sending request")].foldl
      (DepositLoop.step sampleMonitor) ⟨100, []⟩).lastLedger := by decide +kernel
  have settled := kept.settled 101 (by norm_num) reached sampleEntry (List.mem_singleton_self _)
    ⟨"rDepositor", "1.00000000", "ab", none, 101, true⟩ (by decide +kernel)
  exact absurd settled (by decide +kernel)

end DepositMonitor

end PerpDex
