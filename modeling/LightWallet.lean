import LightWallet.Runs
import LightWallet.Positional
import LightWallet.Blocks
import LightWallet.Tables
import LightWallet.Rows
import LightWallet.Json
import LightWallet.Database
import LightWallet.Schema
import LightWallet.TxDetails
import LightWallet.Unlocking
import LightWallet.Recording
import LightWallet.Recorded
import LightWallet.Atomicity
import LightWallet.Rewind
import LightWallet.SearchThread
import LightWallet.AccountRow
import LightWallet.Service
import LightWallet.Login
import LightWallet.Lookups
import LightWallet.Imports
import LightWallet.Payments
import LightWallet.FailedImports
import LightWallet.Requests
import LightWallet.Noninterference
import LightWallet.Passes
import LightWallet.Ledger
import LightWallet.Postings
import LightWallet.Check
import LightWallet.Balances
import LightWallet.Totals
import LightWallet.Depth
import LightWallet.ViewKeys
import LightWallet.Lifecycle
import LightWallet.MapAccess
import LightWallet.Polling
import LightWallet.ConcurrentChecks
import LightWallet.KnownOutputs
import LightWallet.MempoolTotals
import LightWallet.Failures
import LightWallet.Sessions
import LightWallet.History
import LightWallet.Windows
import LightWallet.Refusals
import LightWallet.Rescan
import LightWallet.Completeness
import LightWallet.Deletions
import LightWallet.MainChain
import LightWallet.ChainPasses
import LightWallet.Reorganisations
import LightWallet.ChainRuns
import LightWallet.Vectors
import LightWallet.Tiling
import LightWallet.CheckLoop
import LightWallet.RecentImports
import LightWallet.PaymentSearch
import LightWallet.FreeImports
import LightWallet.PendingPayments
import LightWallet.Draws
import LightWallet.RandomOutputs
import LightWallet.MempoolListing
import LightWallet.Frontend.Locks
import LightWallet.Frontend.Strings
import LightWallet.Frontend.Base58
import LightWallet.Frontend.Address
import LightWallet.Frontend.Keys
import LightWallet.Frontend.AccountService
import LightWallet.Frontend.AddressInfo
import LightWallet.Frontend.Mnemonic
import LightWallet.Submission
import LightWallet.MempoolOrder
import LightWallet.UnspentOutputs
import LightWallet.StoredTotals
import LightWallet.Base128
import LightWallet.Frontend.Varint
import LightWallet.Frontend.Money
import LightWallet.Substrings
import LightWallet.Frontend.OpenAlias
import LightWallet.Splicing
import LightWallet.Frontend.TransactionList
import LightWallet.Doubles
import LightWallet.Limbs
import LightWallet.Frontend.BigInteger
import LightWallet.Frontend.BigProducts
import LightWallet.Frontend.BigDivision
import LightWallet.Frontend.BigPowers
import LightWallet.Frontend.BigStrings
import LightWallet.Frontend.OnLimbs
import LightWallet.Traces
import LightWallet.Frontend.SendCoins
import LightWallet.Frontend.SendProtocol
import LightWallet.Frontend.SendRuns
import LightWallet.Primality
import LightWallet.Edwards
import LightWallet.Frontend.KeyExchange
