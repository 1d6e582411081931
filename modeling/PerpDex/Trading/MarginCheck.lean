import PerpDex.OrderBook.Reference
import PerpDex.Trading.Reserve

/-! The margin check at placement against exact arithmetic.
The notional is formed in 128 bits and cut to 64 before it is divided by the leverage, so the
check asks for the exact initial margin as long as the notional fits; beyond that an order is
accepted for a margin that has nothing to do with its size.
-/

namespace PerpDex

open OrderBook

/-- The notional of an order, rounded down, without a bound on its width. -/
def notionalRaw (args : SubmitArgs) : Int := args.size.raw * args.price.raw / fp8Scale

/-- The exact initial margin of an order: notional over leverage. -/
def initialMargin (args : SubmitArgs) : ℚ := (notionalRaw args : ℚ) / args.leverage.toNat

/-- What the check promises for an order: whenever the engine accepts it for a user without
resting orders, its exact initial margin is below the available margin plus one raw unit.
-/
def MarginSound (args : SubmitArgs) : Prop :=
  ∀ (σ : Type) (perp : PerpClient σ) (crypto : Crypto) (authorization : OrderAuthorization)
    (clock : StpClock) (engine : TradingEngine) (enclave : σ) (available : FP8)
    (result : OrderResult),
    BookInv engine.book
    → engine.book.userOrders args.userId = []
    → readAvailable (perp.getBalance args.userId enclave).1 = .ok available
    → (TradingEngine.submitOrder perp crypto authorization args clock engine enclave).result
        = .ok result
    → initialMargin args < available.raw + 1

/-- A user without resting orders has no margin reserved. -/
theorem userReservedMargin_none {book : OrderBook} {userId : String}
    (none : book.userOrders userId = [])
    : book.userReservedMargin userId = .zero := by
  have unreserved : book.restingOrders.filter (reservesMargin userId) = [] := by
    refine List.filter_eq_nil_iff.mpr (fun order member reserves => ?_)
    simp only [reservesMargin, Bool.and_eq_true, decide_eq_true_eq] at reserves
    have listed : order ∈ book.userOrders userId :=
      List.mem_filter.mpr ⟨member, by simpa using reserves.1.1⟩
    rw [none] at listed
    exact absurd listed List.not_mem_nil
  rw [OrderBook.userReservedMargin, unreserved]
  rfl

/-- An accepted opening order of such a user asked for no more than is available. -/
theorem accepted_required {σ : Type} {perp : PerpClient σ} {crypto : Crypto}
    {authorization : OrderAuthorization} {args : SubmitArgs} {clock : StpClock}
    {engine : TradingEngine} {enclave : σ} {available : FP8} {result : OrderResult}
    (inv : BookInv engine.book) (none : engine.book.userOrders args.userId = [])
    (reported : readAvailable (perp.getBalance args.userId enclave).1 = .ok available)
    (accepted
      : (TradingEngine.submitOrder perp crypto authorization args clock engine enclave).result
        = .ok result)
    : (requiredMargin args).raw ≤ available.raw := by
  rcases submitOrderInner_outcome perp crypto inv ⟨authorization, args, .none⟩ clock enclave with
    ⟨reason, refused, _⟩ | ⟨_, _, _, _, _, _, accepts, _⟩
  · exact absurd (refused.symm.trans accepted) (by simp)
  · simp only [engineAccepts] at accepts
    cases read : (readEnclave perp ⟨authorization, args, .none⟩ enclave).1 with
    | error reason => simp [read] at accepts
    | ok value =>
        obtain ⟨margin, attestedMs⟩ := value
        obtain ⟨other, balance, rfl⟩ := readEnclave_available perp read rfl
        have same : other = available := Except.ok.inj (balance.symm.trans reported)
        subst same
        simp only [read, lockedAccepts, Option.all_some, coversMargin,
          userReservedMargin_none none, Bool.and_eq_true, decide_eq_true_eq] at accepts
        have room := accepts.1.2
        rwa [FP8.sub, FP8.raw_zero, sub_zero, FP8.ofRaw_raw] at room

/-- An authorization whose signer is the owner of an order. -/
def ownedBinding (args : SubmitArgs) : OrderAuthorization :=
  .clientSigned { sellOneBinding with signerAddress := args.userId }

theorem ownedBinding_owner (args : SubmitArgs)
    : checkOwner ⟨ownedBinding args, args, none⟩ = .ok () := by
  simp [checkOwner, ownedBinding]

/-- The granting enclave reports a displayed margin as it is. -/
theorem readAvailable_granting (available : FP8) (positions : List Json) (userId : String)
    : readAvailable ((grantingPerp available.display positions).getBalance userId ()).1
      = .ok available := by
  have shown := FP8.fromStr_display available
  generalize available.display = text at shown ⊢
  have read : ((((grantingPerp text positions).getBalance userId ()).1.toOption.getD
      .null).index "data" |>.index "available_margin").asStr = some text := rfl
  simp only [readAvailable, grantingPerp] at read ⊢
  simp only [Except.toOption, Option.getD_some] at read
  simp only [read, shown]

/-- The engine accepts any well-formed order on an empty book for the margin it asks for. -/
theorem accepts_required {args : SubmitArgs} (sized : 0 < args.size.raw)
    (paid : 0 < args.price.raw) (leveraged : args.leverage.toNat ≠ 0) (crypto : Crypto)
    {authorization : OrderAuthorization}
    (owner : checkOwner ⟨authorization, args, none⟩ = .ok ())
    : ∃ result,
        (TradingEngine.submitOrder (grantingPerp (requiredMargin args).display []) crypto
            authorization args ⟨0, 0⟩ (TradingEngine.new "XRP-USD-PERP" "" false) ()).result
          = .ok result := by
  have balance := readAvailable_granting (requiredMargin args) [] args.userId
  have clocked : readAttestedMs
      ((grantingPerp (requiredMargin args).display []).attestedClockStatus ()).1
      = .ok 1_760_000_000_000 := rfl
  have read : readEnclave (grantingPerp (requiredMargin args).display [])
      ⟨authorization, args, none⟩ ()
      = (.ok (some (requiredMargin args), 1_760_000_000_000), ()) := by
    simp only [readEnclave, owner, fetchAvailable, balance, clocked, Except.map]
  have unreserved : (OrderBook.new "XRP-USD-PERP").userReservedMargin args.userId = .zero := rfl
  have accepted : lockedAccepts (some (requiredMargin args)) 1_760_000_000_000 args ⟨0, 0⟩
      (OrderBook.new "XRP-USD-PERP") = true := by
    have fresh : (OrderBook.new "XRP-USD-PERP").stpRate.peekAt args.userId 0
        = (true, (OrderBook.new "XRP-USD-PERP").stpRate) := rfl
    simp [lockedAccepts, coversMargin, OrderBook.accepts, unreserved, leveraged, sized, paid,
      fresh, FP8.sub, OrderBook.setAttestedMs]
  obtain ⟨submission, matched⟩ := (lockedSubmit_ok_iff _ _ _ _ _).mpr accepted
  simp only [TradingEngine.submitOrder, submitOrderInner, read, TradingEngine.new, matched]
  exact ⟨_, (settleAndPublish_report _ _ _ _ _ _ _).2.choose_spec⟩

/-- A value too wide for an `i64` loses at least two to the sixty-four when it is cut. -/
theorem wrapI64_of_wide {value : Int} (wide : 2 ^ 63 ≤ value)
    : wrapI64 value ≤ value - 2 ^ 64 := by
  have upper := (wrapI64_range value).2
  have split := Int.bmod_add_bdiv value (2 ^ 64)
  rw [← wrapI64] at split
  omega

/-- The margin asked for a notional that does not fit is far below the exact one. -/
theorem required_of_wide {args : SubmitArgs} (sized : 0 < args.size.raw)
    (paid : 0 < args.price.raw) (low : 1 ≤ args.leverage.toNat)
    (high : args.leverage.toNat ≤ 20) (wide : 2 ^ 63 ≤ notionalRaw args)
    : ((requiredMargin args).raw + 1) * args.leverage.toNat ≤ notionalRaw args := by
  have product : 0 ≤ args.size.raw * args.price.raw := mul_nonneg sized.le paid.le
  have cut := wrapI64_of_wide wide
  have required : (requiredMargin args).raw
      = wrapI64 ((wrapI64 (notionalRaw args)).tdiv args.leverage.toNat) := by
    rw [requiredMargin, if_pos paid, FP8.mul, FP8.raw_wrap, FP8.raw_wrap,
      Int.tdiv_eq_ediv_of_nonneg product]
    rfl
  have range := wrapI64_range (notionalRaw args)
  generalize wrapI64 (notionalRaw args) = rest at *
  have positive : (0 : Int) < args.leverage.toNat := by exact_mod_cast low
  have bounded : (args.leverage.toNat : Int) ≤ 20 := by exact_mod_cast high
  rcases le_total 0 rest with nonneg | negative
  · have quotient := Int.ediv_mul_le rest positive.ne'
    have nonnegQuotient : 0 ≤ rest / (args.leverage.toNat : Int) :=
      Int.ediv_nonneg nonneg positive.le
    have smaller := Int.ediv_le_self (args.leverage.toNat : Int) nonneg
    rw [required, Int.tdiv_eq_ediv_of_nonneg nonneg,
      wrapI64_eq ⟨by omega, smaller.trans_lt range.2⟩, add_mul, one_mul]
    omega
  · -- a negative rest asks for nothing at all
    have quotient : rest.tdiv (args.leverage.toNat : Int) ≤ 0 := by
      simpa using Int.tdiv_le_tdiv positive negative
    have smaller := Int.natAbs_tdiv_le_natAbs rest (args.leverage.toNat : Int)
    have lower : rest ≤ rest.tdiv (args.leverage.toNat : Int) := by omega
    rw [required, wrapI64_eq ⟨range.1.trans lower, by omega⟩]
    nlinarith

/-- The check is sound for an order the API admits exactly if its notional fits an `i64`. -/
theorem margin_check_sound_iff (args : SubmitArgs) (sized : 0 < args.size.raw)
    (paid : 0 < args.price.raw) (low : 1 ≤ args.leverage.toNat)
    (high : args.leverage.toNat ≤ 20)
    : MarginSound args ↔ notionalRaw args < 2 ^ 63 := by
  have positive : (0 : ℚ) < args.leverage.toNat := by exact_mod_cast low
  constructor
  · intro sound
    by_contra wide
    have short := required_of_wide sized paid low high (not_lt.mp wide)
    obtain ⟨result, accepted⟩ :=
      accepts_required sized paid (Nat.one_le_iff_ne_zero.mp low) sampleCrypto
        (ownedBinding_owner args)
    have bound := sound Unit _ sampleCrypto _ ⟨0, 0⟩ _ () _ result (BookInv.new "XRP-USD-PERP") rfl
      (readAvailable_granting _ [] args.userId) accepted
    rw [initialMargin, div_lt_iff₀ positive] at bound
    have exact : notionalRaw args < ((requiredMargin args).raw + 1) * args.leverage.toNat := by
      exact_mod_cast bound
    omega
  · intro fits σ perp crypto authorization clock engine enclave available result inv none reported
      accepted
    have nonneg : 0 ≤ notionalRaw args :=
      Int.ediv_nonneg (mul_nonneg sized.le paid.le) (by decide)
    have required : (requiredMargin args).raw = notionalRaw args / args.leverage.toNat := by
      rw [requiredMargin, if_pos paid]
      exact margin_fp8 sized.le paid.le ⟨by simp only [notionalRaw] at nonneg; omega, fits⟩
    have covered := accepted_required inv none reported accepted
    have rounded := Int.lt_ediv_add_one_mul_self (notionalRaw args)
      (show (0 : Int) < args.leverage.toNat by exact_mod_cast low)
    rw [← required] at rounded
    rw [initialMargin, div_lt_iff₀ positive]
    calc (notionalRaw args : ℚ)
        < ((requiredMargin args).raw + 1) * args.leverage.toNat := by exact_mod_cast rounded
      _ ≤ (available.raw + 1) * args.leverage.toNat := by
        have covered : ((requiredMargin args).raw : ℚ) ≤ available.raw := by exact_mod_cast covered
        gcongr

/-- An ordinary order: five units at ten, with leverage one. -/
theorem margin_check_sound_ordinary
    : MarginSound (limitOrder "trader" .long 1_000_000_000 500_000_000 .gtc) :=
  (margin_check_sound_iff _ (by decide) (by decide) (by decide) (by decide)).mpr (by decide)

/-- A buy order for 429496.7296 units at 429496.7296. -/
def wideOrder : SubmitArgs :=
  limitOrder "trader" .long 42_949_672_960_000 42_949_672_960_000 .gtc

/-- The notional of that order is two to the sixty-four raw units, which is cut to nothing:
the order is accepted for an account without any available margin.
-/
theorem wide_order_needs_no_margin
    : (∃ result,
        (TradingEngine.submitOrder (grantingPerp FP8.zero.display []) sampleCrypto
            (ownedBinding wideOrder) wideOrder ⟨0, 0⟩
            (TradingEngine.new "XRP-USD-PERP" "" false) ()).result = .ok result)
      ∧ initialMargin wideOrder = 2 ^ 64
      ∧ ¬ MarginSound wideOrder := by
  have required : requiredMargin wideOrder = .zero := by decide
  have accepted := @accepts_required wideOrder (by decide) (by decide) (by decide)
    sampleCrypto _ (ownedBinding_owner wideOrder)
  have reported := readAvailable_granting (requiredMargin wideOrder) [] wideOrder.userId
  have notional : notionalRaw wideOrder = 2 ^ 64 := by decide
  have margin : initialMargin wideOrder = 2 ^ 64 := by
    have single : wideOrder.leverage.toNat = 1 := rfl
    rw [initialMargin, notional, single]
    norm_num
  rw [required] at accepted reported
  refine ⟨accepted, margin, fun sound => ?_⟩
  obtain ⟨result, accepted⟩ := accepted
  have bound := sound Unit _ sampleCrypto _ ⟨0, 0⟩ _ () _ result (BookInv.new "XRP-USD-PERP") rfl
    reported accepted
  rw [margin, FP8.raw_zero] at bound
  norm_num at bound

end PerpDex
