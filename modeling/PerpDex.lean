import PerpDex.Lib.BTreeMap
import PerpDex.Fp8Exact
import PerpDex.RateLimitWindow
import PerpDex.OrderBook.Model
import PerpDex.OrderBook.Queue
import PerpDex.OrderBook.Invariant
import PerpDex.OrderBook.Failover
import PerpDex.OrderBook.Reference
import PerpDex.OrderBook.Quantities
import PerpDex.OrderBook.FillOrKill
import PerpDex.Api.Mirror
import PerpDex.Api.Identity
import PerpDex.Api.Interleaving
import PerpDex.Api.Reload
import PerpDex.Api.CancelAuthority
import PerpDex.Api.StoredOrders
import PerpDex.P2p.Refinement
import PerpDex.P2p.Replay
import PerpDex.P2p.Election
import PerpDex.Trading.OpenInterest
import PerpDex.Trading.Reserve
import PerpDex.Trading.MarginCheck
import PerpDex.Trading.MakerTerms
import PerpDex.Withdrawal.Visibility
import PerpDex.Withdrawal.SlotLookup
import PerpDex.Withdrawal.Expiry
import PerpDex.Deposit.Scanner
import PerpDex.Deposit.Cursor
import PerpDex.Deposit.Straddle
import PerpDex.Deposit.IssuedAmount
import PerpDex.Deposit.DepositProof
import PerpDex.Deposit.HexText
import PerpDex.Deposit.RefusalCode
import PerpDex.Membership.Healing
import PerpDex.Membership.Projection
import PerpDex.Membership.AddressText
import PerpDex.Membership.Acknowledgement
import PerpDex.Membership.Collectors
import PerpDex.Membership.Admin
import PerpDex.Membership.SignerlistUpdate
import PerpDex.Membership.SetHash
import PerpDex.Membership.Digests
import PerpDex.Membership.Bundles
import PerpDex.Membership.Cosigning
import PerpDex.Safe.Reconciliation
import PerpDex.Safe.Rederivation
import PerpDex.Safe.Shortest
import PerpDex.Safe.Execution
import PerpDex.Auth.Roster
import PerpDex.Auth.Canonical
import PerpDex.Spv.Clock
import PerpDex.Spv.Inclusion
import PerpDex.Spv.StateProof
import PerpDex.Spv.ProofPath
import PerpDex.Spv.Stripping
import PerpDex.Dkg.Delivery
import PerpDex.Dkg.Interference
import PerpDex.Frost.Round
import PerpDex.Bootstrap.Fallback
import PerpDex.Reserves.Publisher
import PerpDex.Reserves.SourceDiversity
import PerpDex.SessionKey.Safety
import PerpDex.LoopbackUrl
import PerpDex.Migration.Capacity
import PerpDex.P2p.Dispatch
import PerpDex.Cli.TxFields
import PerpDex.Withdrawal.Sequential
import PerpDex.Membership.OperatorUpdate
import PerpDex.Api.Feed
