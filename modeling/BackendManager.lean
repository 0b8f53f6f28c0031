import BackendManager.ChargeOnce
import BackendManager.TopUpOnce
import BackendManager.RefreshSession
import BackendManager.Revocation
import BackendManager.IdempotencyStore
import BackendManager.ClaimExits
import BackendManager.ReplayedResponse
import BackendManager.ReceiveReplay
import BackendManager.ClaimOwnership
import BackendManager.ExactlyOnce
import BackendManager.Rating
import BackendManager.UsageWindow
import BackendManager.UsageSteps
import BackendManager.UsageConservation
import BackendManager.PeriodChain
import BackendManager.PeriodProgress
import BackendManager.Billing
import BackendManager.TenantTransactions
import BackendManager.ApiKeys
import BackendManager.KeyHistory
import BackendManager.Organizations
import BackendManager.OrganizationSteps
import BackendManager.MemberEvents
import BackendManager.AuditTrail
import BackendManager.RoleGrants
import BackendManager.Deliveries
import BackendManager.SubscriptionSync
import BackendManager.CallerScope
import BackendManager.RequestContent
import BackendManager.FingerprintTexts
import BackendManager.ClaimRace
import BackendManager.TenantContext
import BackendManager.SpentTokens
import BackendManager.TokenVersion
import BackendManager.TokenFamilies
import BackendManager.Checkout
import BackendManager.WebhookOnce
import BackendManager.WebhookOrigins
import BackendManager.Outbox
import BackendManager.OutboxRelay
import BackendManager.RelayOnce
import BackendManager.DrainRounds
import BackendManager.QueueOutage
import BackendManager.DrainAlone
import BackendManager.Limiter
import BackendManager.Lockout
import BackendManager.LockoutWindow
import BackendManager.RouteKeys
import BackendManager.RouteTemplates
import BackendManager.WebhookEndpoints
import BackendManager.StoredLists
import BackendManager.Json
import BackendManager.JsonCanonical
import BackendManager.JsonLiterals
import BackendManager.JsonText
import BackendManager.PaymentAdapters
import BackendManager.ForgedWebhooks
import BackendManager.Noninterference
import BackendManager.OffsetPages
import BackendManager.SchemaTables
import BackendManager.SchemaChanges
import BackendManager.SchemaScripts
import BackendManager.Migrations
import BackendManager.MigrationSteps
import BackendManager.MigrationRuns
import BackendManager.MigratedRows
import BackendManager.AuditPages
import BackendManager.RateLimits
import BackendManager.BudgetIsolation
import BackendManager.RatedInvoice
import BackendManager.TokenBucket
import BackendManager.BucketLaw
import BackendManager.InvoiceColumns
import BackendManager.ChargeSettles
import BackendManager.UsageOnce
import BackendManager.CredentialChange
import BackendManager.AuthRoutes
import BackendManager.IpAddress
import BackendManager.AddressSpace
import BackendManager.Uri
import BackendManager.UrlSplit
import BackendManager.Egress
import BackendManager.EgressErrors
import BackendManager.PublicAddresses
import BackendManager.MissingFields
import BackendManager.RazorpayEventIds
import BackendManager.Storage
import BackendManager.StorageRoutes
import BackendManager.Containers
import BackendManager.LogScrubbing
import BackendManager.Denylist
import BackendManager.PlanCache
import BackendManager.WebhookWorker
import BackendManager.MigrationSteps
