import IgnitePay.Lib.Bytes
import IgnitePay.Lib.Machine
import IgnitePay.Lib.Sha256
import IgnitePay.Lib.Run
import IgnitePay.Lib.Solana
import IgnitePay.Lib.Store
import IgnitePay.Mb.State
import IgnitePay.Mb.Ed25519
import IgnitePay.Lib.HashTree
import IgnitePay.Mb.SumMerkle
import IgnitePay.Mb.Program
import IgnitePay.Mb.Spec
import IgnitePay.Mb.FraudProof
import IgnitePay.Mb.Placement
import IgnitePay.Mb.Accounting
import IgnitePay.Mb.Escrow
import IgnitePay.Mb.Window
import IgnitePay.Mb.Sdk
import IgnitePay.Lib.Token
import IgnitePay.StateChannel.Leaf
import IgnitePay.StateChannel.MerkleTree
import IgnitePay.Program.State
import IgnitePay.Program.Introspection
import IgnitePay.Program.Instructions
import IgnitePay.Program.Spec
import IgnitePay.Program.Authenticity
import IgnitePay.Program.Payout
import IgnitePay.Program.Effect
import IgnitePay.Program.ClaimedLeaves
import IgnitePay.Program.Challenge
import IgnitePay.Program.Settlement
import IgnitePay.Lib.Share
import IgnitePay.StateChannel.State
import IgnitePay.StateChannel.Channel
import IgnitePay.Program.Refunds
import IgnitePay.Lib.Sysvar
import IgnitePay.Program.Builders
import IgnitePay.Program.Signatures
import IgnitePay.StateChannel.Compliance
import IgnitePay.StateChannel.Updates
import IgnitePay.StateChannel.Batch
import IgnitePay.StateChannel.Funding
import IgnitePay.StateChannel.Claims
import IgnitePay.StateChannel.Payouts
import IgnitePay.StateChannel.Manager
import IgnitePay.StateChannel.Effect
import IgnitePay.StateChannel.Cosign
import IgnitePay.StateChannel.LifeCycle
import IgnitePay.StateChannel.Roots
import IgnitePay.Program.Replaced
import IgnitePay.StateChannel.Messages
import IgnitePay.Program.Messages
import IgnitePay.StateChannel.Pipeline
import IgnitePay.StateChannel.Helpers
import IgnitePay.StateChannel.HtlcManager
import IgnitePay.StateChannel.MultiHop
import IgnitePay.StateChannel.Crash
import IgnitePay.StateChannel.Conservation
import IgnitePay.Service.State
import IgnitePay.Service.Payment
import IgnitePay.Service.Batch
import IgnitePay.Service.Settlement
import IgnitePay.Service.Htlc
import IgnitePay.Lib.Tasks
import IgnitePay.Service.MultiHop
import IgnitePay.Lib.Lamports
import IgnitePay.SessionKey.State
import IgnitePay.SessionKey.Program
import IgnitePay.SessionKey.Spec
import IgnitePay.SessionKey.Spending
import IgnitePay.Lib.FixedWindow
import IgnitePay.SessionKey.Window
import IgnitePay.SessionKey.Asset
import IgnitePay.Did.State
import IgnitePay.Did.Program
import IgnitePay.Did.Spec
import IgnitePay.Did.Control
import IgnitePay.Did.Revocation
import IgnitePay.Agent.State
import IgnitePay.Agent.Program
import IgnitePay.Agent.Spec
import IgnitePay.Agent.WhitelistCap
import IgnitePay.Agent.Verdicts
import IgnitePay.Agent.SessionLimits
import IgnitePay.Agent.Identity
import IgnitePay.Agent.Vouchers
import IgnitePay.Agent.DoubleUse
import IgnitePay.Lib.SortedTree
import IgnitePay.Lib.Answers
import IgnitePay.Router.Keylists
import IgnitePay.Router.KeylistAgreement
import IgnitePay.Router.Routes
import IgnitePay.Lib.Paging
import IgnitePay.Router.MessageStores
import IgnitePay.Router.MessageAgreement
import IgnitePay.Router.CursorSync
import IgnitePay.Router.Presence
import IgnitePay.Lib.Json
import IgnitePay.Router.Dispatch
import IgnitePay.Router.Replay
import IgnitePay.Router.Auth
import IgnitePay.Lib.Protobuf
import IgnitePay.Audit.Messages
import IgnitePay.Audit.Ipfs
import IgnitePay.Audit.LogChunk
import IgnitePay.Audit.LogSync
import IgnitePay.Lib.Chains
import IgnitePay.Audit.Tampering
import IgnitePay.Agent.Base58
import IgnitePay.Lib.Text
import IgnitePay.Merchant.State
import IgnitePay.Merchant.VoucherAgreement
import IgnitePay.Merchant.Orders
import IgnitePay.Merchant.ConfirmedOrders
import IgnitePay.Merchant.Backing
import IgnitePay.Merchant.Settlement
import IgnitePay.Merchant.SettledOnce
import IgnitePay.Pairing.Messages
import IgnitePay.Pairing.State
import IgnitePay.Pairing.Handshake
import IgnitePay.Pairing.Authorization
import IgnitePay.Agent.Recording
import IgnitePay.Did.Service
import IgnitePay.Lib.Handlers
import IgnitePay.Registry.Credentials
import IgnitePay.Registry.State
import IgnitePay.Registry.Authorization
import IgnitePay.Audit.LogStore
import IgnitePay.Audit.NothingLost
import IgnitePay.Registry.Accesses
import IgnitePay.Registry.Revocation
import IgnitePay.Lib.LegacyTransaction
import IgnitePay.Wallet.Transactions
import IgnitePay.Wallet.Validity
import IgnitePay.Lib.Execution
import IgnitePay.Relayer.State
import IgnitePay.Relayer.Sponsor
import IgnitePay.Agent.OnchainLimits
import IgnitePay.Mb.SumProofs
import IgnitePay.Program.Introspected
import IgnitePay.StateChannel.TreeProofs
import IgnitePay.StateChannel.Amounts
import IgnitePay.StateChannel.Denominations
import IgnitePay.Program.Lockstep
import IgnitePay.Agent.ListSync
import IgnitePay.Mb.Settleable
import IgnitePay.Agent.VoucherBacking
import IgnitePay.StateChannel.Markers
import IgnitePay.StateChannel.SpendingWindow
import IgnitePay.Lib.SimplePaths
import IgnitePay.StateChannel.Routing
import IgnitePay.StateChannel.Timelocks
import IgnitePay.StateChannel.HopAmounts
import IgnitePay.Audit.MerkleBinding
import IgnitePay.Audit.Restore
import IgnitePay.Registry.SignedFields
import IgnitePay.Wallet.ProgramAddresses
import IgnitePay.Lib.Anchor
import IgnitePay.Program.Entrypoint
import IgnitePay.Router.Custody
import IgnitePay.SessionKey.Entrypoint
import IgnitePay.Agent.Outcomes
import IgnitePay.Program.History
import IgnitePay.Wallet.Payments
import IgnitePay.Wallet.Registration
import IgnitePay.Lib.JsonObject
import IgnitePay.Pairing.Requests
