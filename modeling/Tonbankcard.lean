import Tonbankcard.FiniteMap
import Tonbankcard.Journal
import Tonbankcard.FifoReplica
import Tonbankcard.Ledger
import Tonbankcard.TonCell
import Tonbankcard.TonContract
import Tonbankcard.AccountTypes
import Tonbankcard.MerchantPaymentHub
import Tonbankcard.MerchantPaymentHubLedger
import Tonbankcard.MerchantPaymentHubAuthority
import Tonbankcard.MultiSigCard
import Tonbankcard.MultiSigCardHistory
import Tonbankcard.MultiSigCardExecution
import Tonbankcard.MultiSigCardQuorum
import Tonbankcard.MultiSigCardApprovals
import Tonbankcard.MultiSigCardValue
import Tonbankcard.MultiSigCardConsent
import Tonbankcard.AccountLocks
import Tonbankcard.AccountLocksRegistry
import Tonbankcard.AccountLocksTransfers
import Tonbankcard.AccountLocksMessages
import Tonbankcard.AccountLocksRoles
import Tonbankcard.AccountLocksReplication
import Tonbankcard.VerifiedNFTAccountResolver
import Tonbankcard.VerifiedNFTAccountResolverQueries
import Tonbankcard.OwnerFreshness
import Tonbankcard.ProposalRegistry
import Tonbankcard.ProposalRegistryRequests
import Tonbankcard.ProposalRegistryBookkeeping
import Tonbankcard.ProposalRegistryGovernance
import Tonbankcard.ProposalRegistryTally
import Tonbankcard.ProposalRegistryProvenance
import Tonbankcard.EcmaScript
import Tonbankcard.JsMap
import Tonbankcard.MerchantApi
import Tonbankcard.MerchantApiHashes
import Tonbankcard.InvoiceService
import Tonbankcard.InvoiceServiceRuns
import Tonbankcard.InvoiceServiceSettlement
import Tonbankcard.InvoiceServicePermanence
import Tonbankcard.InvoiceServiceMatching
import Tonbankcard.PublishOnce
import Tonbankcard.InvoiceServiceIdempotency
import Tonbankcard.InvoicePayment
import Tonbankcard.Await
import Tonbankcard.TonAddress
import Tonbankcard.IndexerDatabase
import Tonbankcard.IndexerEventParser
import Tonbankcard.IndexerService
import Tonbankcard.IndexerContiguity
import Tonbankcard.IndexerTables
import Tonbankcard.IndexerPolls
import Tonbankcard.IndexerReorg
import Tonbankcard.IndexerConfirmations
import Tonbankcard.IndexerOverlap
import Tonbankcard.IndexerCompleteness
import Tonbankcard.TipHistory
import Tonbankcard.IndexerShards
import Tonbankcard.IndexerReplay
import Tonbankcard.IndexerSnapshots
import Tonbankcard.IndexerAggregates
import Tonbankcard.Unicode
import Tonbankcard.QrCode
import Tonbankcard.Iso18004
import Tonbankcard.QrCodeReading
import Tonbankcard.CanonicalJson
import Tonbankcard.SdkCanonicalJson
import Tonbankcard.SdkCanonicalBytes
import Tonbankcard.MerchantApiPayload
import Tonbankcard.Doubles
import Tonbankcard.SdkText
import Tonbankcard.WebhookVerifiers
import Tonbankcard.WebhookHeaders
import Tonbankcard.WebhookAgreement
import Tonbankcard.WebhookFreshness
import Tonbankcard.InvoiceIdPayload
import Tonbankcard.InvoiceIdSpellings
import Tonbankcard.TactLayout
import Tonbankcard.EmittedEvents
import Tonbankcard.MerchantPaymentHubEvents
import Tonbankcard.RecurringPayments
import Tonbankcard.RecurringPaymentsLimits
import Tonbankcard.RecurringPaymentsTerms
import Tonbankcard.CrossChainBridge
import Tonbankcard.CrossChainBridgeIntents
import Tonbankcard.LendingProtocolCoordinator
import Tonbankcard.LendingProtocolCoordinatorDiagram
import Tonbankcard.TransparencyRegistry
import Tonbankcard.TransparencyRegistryCounters
import Tonbankcard.SnapshotVerifier
import Tonbankcard.SnapshotVerifierEligibility
import Tonbankcard.PaymentHub
import Tonbankcard.PaymentHubTransfers
import Tonbankcard.Timelock
import Tonbankcard.HubTimelocks
import Tonbankcard.SdkInvoiceStatus
import Tonbankcard.CollateralSignal
import Tonbankcard.CollateralSignalValidity
import Tonbankcard.ReedSolomon
import Tonbankcard.QrCodeField
import Tonbankcard.QrCodeCodewords
import Tonbankcard.JsNumbers
import Tonbankcard.Json
import Tonbankcard.Base64Url
import Tonbankcard.Keyset
import Tonbankcard.IndexerHistory
import Tonbankcard.IndexerHistoryRoute
import Tonbankcard.IndexerHistoryPages
import Tonbankcard.IndexerHistoryCache
import Tonbankcard.IpText
import Tonbankcard.SsrfGuard
import Tonbankcard.SsrfGuardRanges
import Tonbankcard.SsrfGuardSpellings
import Tonbankcard.SignatureChecks
import Tonbankcard.SdkAmount
import Tonbankcard.ApiKeyService
import Tonbankcard.ApiKeyAuthorization
import Tonbankcard.JsonText
import Tonbankcard.JsObject
import Tonbankcard.MetadataValidators
import Tonbankcard.NumberText
import Tonbankcard.NowPayments
import Tonbankcard.FaucetRateLimiter
import Tonbankcard.MetadataStorage
import Tonbankcard.QrCodeText
import Tonbankcard.ProtocolModel
import Tonbankcard.SdkKeyOrder
import Tonbankcard.GovernanceSnapshot
import Tonbankcard.Batch
import Tonbankcard.Migrator
import Tonbankcard.QrCodeDamage
import Tonbankcard.MerchantPaymentHubProtocol
import Tonbankcard.ProtocolModelRefinement
import Tonbankcard.TransparencyRegistryReports
import Tonbankcard.SdkSettlement
import Tonbankcard.PaymentLinks
import Tonbankcard.WalletLinks
import Tonbankcard.WebhookService
import Tonbankcard.TonConnectSession
import Tonbankcard.ClientIp
import Tonbankcard.MultiSigCardAdapter
import Tonbankcard.ProposalRegistryElectorate
import Tonbankcard.DiamondResolver
import Tonbankcard.MerchantRoutes
import Tonbankcard.PostgresStorage
import Tonbankcard.RedisIdempotency
