import IronStock.Lib.Runs
import IronStock.Lib.Forest
import IronStock.Lib.Table
import IronStock.Lib.Strongest
import IronStock.Lib.SlidingWindow
import IronStock.Crypto
import IronStock.Http
import IronStock.Service
import IronStock.Permissions
import IronStock.FolderHandlers
import IronStock.ItemRows
import IronStock.ImportHandlers
import IronStock.FolderForest
import IronStock.ImportIsolation
import IronStock.ItemHandlers
import IronStock.ItemVersionHandlers
import IronStock.Lib.NumberedLog
import IronStock.FieldHistory
import IronStock.ItemShares
import IronStock.OwnerShares
import IronStock.ItemNames
import IronStock.ItemReads
import IronStock.VaultHandlers
import IronStock.ApprovalGate
import IronStock.Authentication
import IronStock.RevokedSessions
import IronStock.Accounts
import IronStock.LoginHandlers
import IronStock.TotpHandlers
import IronStock.RecoverHandlers
import IronStock.AdminUsers
import IronStock.Administrators
import IronStock.ApiTokens
import IronStock.ScimHandlers
import IronStock.RefreshHandler
import IronStock.Authority
import IronStock.ScimEffects
import IronStock.Requests
import IronStock.SecondFactor
import IronStock.FolderLevels
import IronStock.ItemLevels
import IronStock.ShareKeys
import IronStock.Lib.IdealAead
import IronStock.Lib.Interleaving
import IronStock.Lib.LockingCounter
import IronStock.Lib.Locks
import IronStock.Lib.Vouchers
import IronStock.ShareLinks
import IronStock.ShareLinkBudget
import IronStock.Tickets
import IronStock.TicketSafety
import IronStock.AccessRequestStates
import IronStock.RecoverCalls
import IronStock.RecoverOneShot
import IronStock.Lib.Transactions
import IronStock.PasswordChecks
import IronStock.PasswordReset
import IronStock.KeypairCalls
import IronStock.KeypairLifecycle
import IronStock.BootstrapSetup
import IronStock.FrontDoors
import IronStock.SSOHandlers
import IronStock.FrontDoorGates
import IronStock.RateLimits
import IronStock.Lockout
import IronStock.TokenGates
import IronStock.PipelineDiagrams
import IronStock.ItemSearch
import IronStock.CatalogBrowse
import IronStock.RecoveryCodeSet
import IronStock.TrustedDevices
import IronStock.OIDCStates
import IronStock.OIDCStateStores
import IronStock.OIDCStateSafety
import IronStock.SSOProvisioning
import IronStock.SSOAccounts
import IronStock.IDTokens
import IronStock.IDTokenGates
import IronStock.SigningKeys
import IronStock.SecurityKeys
import IronStock.Lib.CivilTime
import IronStock.Lib.Runes
import IronStock.Lib.JsonText
import IronStock.Lib.ByteaText
import IronStock.Lib.CsvReader
import IronStock.Lib.CsvText
import IronStock.Lib.Decimals
import IronStock.Lib.TimeLayouts
import IronStock.Lib.TimestampText
import IronStock.CertExpiry
import IronStock.ClientCerts
import IronStock.Lib.EventLoop
import IronStock.DesktopClient
import IronStock.DesktopRefresh
import IronStock.Lib.SingleFlight
import IronStock.ExtensionClient
import IronStock.ExtensionTokens
import IronStock.ExtensionRefresh
import IronStock.AuditWriter
import IronStock.Lib.RunTallies
import IronStock.AuditTrail
import IronStock.AuditedHandlers
import IronStock.Lib.SqlNames
import IronStock.AnsibleInventory
import IronStock.ItemGraph
import IronStock.SecretFingerprints
import IronStock.RootFolders
import IronStock.Lib.IpText
import IronStock.ClientAddresses
import IronStock.Lib.Reselection
import IronStock.NameBackfill
import IronStock.GroupShareLevels
import IronStock.Lib.Autocommit
import IronStock.ShareAtomicity
import IronStock.Lib.FilterLanguage
import IronStock.ScimFilters
import IronStock.Lib.PartialFold
import IronStock.ScimPatchUsers
import IronStock.ScimPatchGroups
import IronStock.Lib.Outbox
import IronStock.OfflineQueue
import IronStock.OfflineDelivery
import IronStock.Lib.Instants
import IronStock.HealthScores
import IronStock.ItemTags
import IronStock.EncryptedExport
import IronStock.IpAllowLists
import IronStock.WsHub
import IronStock.WsHubInvariant
import IronStock.WsHubFanOut
import IronStock.Lib.UrlText
import IronStock.Lib.UrlPaths
import IronStock.Lib.HostText
import IronStock.HttpTransport
import IronStock.K8sClient
import IronStock.K8sProxy
import IronStock.K8sGuard
import IronStock.VaultPaths
import IronStock.CsvPreview
import IronStock.AuditQuery
import IronStock.AuditConditions
import IronStock.AuditPages
import IronStock.Lib.QuotedPrintable
import IronStock.Lib.MailText
import IronStock.MailMessages
import IronStock.Lib.TemplateSets
import IronStock.MailTemplates
import IronStock.Lib.RowVersions
import IronStock.LifecycleStages
import IronStock.ClusterCredentials
import IronStock.Lib.ErrorChain
import IronStock.UniqueConflicts
import IronStock.Replies
import IronStock.ItemLinks
import IronStock.ItemMetadata
import IronStock.Lib.SqlText
import IronStock.ItemDuplicates
import IronStock.Lib.PathEscapes
import IronStock.ItemAnnotations
import IronStock.CatalogEntity
import IronStock.Lib.Grouping
import IronStock.AnsibleDocuments
import IronStock.ReportMetrics
import IronStock.Lib.JsonFields
import IronStock.MailOutbox
import IronStock.LogManager
import IronStock.LogManagerSafety
import IronStock.Lib.TextEncoding
import IronStock.Lib.Base64Text
import IronStock.ClientCrypto
import IronStock.ClientPages
import IronStock.ClientVault
import IronStock.ClientVaultRuns
import IronStock.ItemKeys
import IronStock.ShareLinkPages
import IronStock.WsClient
