import FlashSale.Lib.Table
import FlashSale.Lib.Run
import FlashSale.Lib.ReadCommitted
import FlashSale.Lib.Transaction
import FlashSale.Lib.Serial
import FlashSale.Lib.Solo
import FlashSale.Lib.TokenBucket
import FlashSale.Schema
import FlashSale.Statements
import FlashSale.Purchase
import FlashSale.SaleCreation
import FlashSale.Settlement
import FlashSale.Registration
import FlashSale.Verification
import FlashSale.State
import FlashSale.Api
import FlashSale.Poller
import FlashSale.System
import FlashSale.Calls
import FlashSale.Atomic
import FlashSale.Coherence
import FlashSale.Ledger
import FlashSale.Settling
import FlashSale.Stock
import FlashSale.Announced
import FlashSale.History
import FlashSale.Delivering
import FlashSale.LifeCycle
import FlashSale.Processed
import FlashSale.Redelivery
import FlashSale.Answers
import FlashSale.Ownership
import FlashSale.Idempotency
import FlashSale.Calendar
import FlashSale.Accounts
import FlashSale.Activation
import FlashSale.OneTimeCodes
import FlashSale.LatestCode
import FlashSale.RefreshTokens
import FlashSale.PurchaseAlone
import FlashSale.Linearization
import FlashSale.Lib.LockOrder
import FlashSale.RowLocks
import FlashSale.ApiDeadlock
import FlashSale.StockDeadlock
import FlashSale.Constraints
import FlashSale.SoloPurchase
import FlashSale.SoloCreation
import FlashSale.Seeding
import FlashSale.AlreadyPurchased
import FlashSale.RateLimiter
import FlashSale.TokenService
import FlashSale.RateLimitGuard
import FlashSale.RedisFailures
import FlashSale.SoloAuth
import FlashSale.Enumeration
import FlashSale.InternalErrors
import FlashSale.AuthSteps
import FlashSale.RetryAfter
import FlashSale.PollLoop
import FlashSale.Identifiers
import FlashSale.Lib.Encoding
import FlashSale.Lib.Aead
import FlashSale.OtpCrypto
import FlashSale.Lib.Integrity
import FlashSale.Integrity
import FlashSale.Conformance
import FlashSale.Causes
import FlashSale.Listing
import FlashSale.Traffic
import FlashSale.Lib.Reach
import FlashSale.Lib.Apart
import FlashSale.SoloSettlement
import FlashSale.Draining
import FlashSale.Recovery
import FlashSale.Authentication
import FlashSale.Bearer
import FlashSale.Serializability
import FlashSale.Timeliness
import FlashSale.Answering
import FlashSale.Availability
