import Pasarela.Conc.Prog
import Pasarela.Conc.Pool
import Pasarela.Js.Text
import Pasarela.Js.Double
import Pasarela.Js.Json
import Pasarela.Js.NumberText
import Pasarela.Js.Units
import Pasarela.Js.Compare
import Pasarela.Js.Document
import Pasarela.Store.Table
import Pasarela.Errors
import Pasarela.Schema
import Pasarela.StateMachine
import Pasarela.Provider
import Pasarela.Database
import Pasarela.Effects
import Pasarela.Payments
import Pasarela.Workers
import Pasarela.RefundLedger
import Pasarela.Calls
import Pasarela.Conc.Owned
import Pasarela.Conc.History
import Pasarela.Conc.Local
import Pasarela.Conc.Contest
import Pasarela.Ownership
import Pasarela.Lifecycle
import Pasarela.Dto
import Pasarela.Machine
import Pasarela.Idempotency
import Pasarela.OrphanCharge
import Pasarela.Adapters
import Pasarela.WebhookAuthenticity
import Pasarela.WebhookDedup
import Pasarela.Guards
import Pasarela.Authorization
import Pasarela.Validation
import Pasarela.Http
import Pasarela.KeyBinding
import Pasarela.Tenants
import Pasarela.Isolation
import Pasarela.Conc.Serial
import Pasarela.Sequential
import Pasarela.AtMostOnce
import Pasarela.Convergence
import Pasarela.RefundStatus
import Pasarela.WebhookQueue
import Pasarela.RefundVerdict
import Pasarela.RefundRace
import Pasarela.ExternalIds
import Pasarela.ApiKeys
import Pasarela.Routes
import Pasarela.RateLimit
import Pasarela.Routing
import Pasarela.ProviderChoice
import Pasarela.Drafts
import Pasarela.EventLog
import Pasarela.PendingGauge
import Pasarela.DeliveryRace
import Pasarela.CreateRace
import Pasarela.PartialRefund
import Pasarela.SignedFields
import Pasarela.RawBody
import Pasarela.RefundAmounts
import Pasarela.Breaker
import Pasarela.ErrorMappers
import Pasarela.AdapterCalls
import Pasarela.ErrorVocabulary
import Pasarela.Store.Window
import Pasarela.Pages
import Pasarela.Js.Bytes
import Pasarela.Pii
import Pasarela.Js.Words
import Pasarela.CardData
import Pasarela.CardNumbers
import Pasarela.WebhookShape
import Pasarela.StatusWords
import Pasarela.OrderReading
import Pasarela.Js.Cents
import Pasarela.ChargeAmounts
import Pasarela.Conc.EventLoop
import Pasarela.SharedBreaker
import Pasarela.RollingBreaker
import Pasarela.DeclinedCharges
import Pasarela.RoutedBreakers
import Pasarela.Conc.Acts
import Pasarela.RouteCache
import Pasarela.Interceptor
import Pasarela.ReconcileRounds
import Pasarela.Store.RetryQueue
import Pasarela.WebhookJobs
import Pasarela.WebhookPipeline
import Pasarela.KeyAdmin
import Pasarela.KeyAuthority
import Pasarela.KeyRequests
import Pasarela.Durability
import Pasarela.Store.Journal
import Pasarela.PaymentAudit
import Pasarela.AuditTrail
import Pasarela.Provenance
import Pasarela.Conc.Projection
import Pasarela.RunIsolation
import Pasarela.Requested
import Pasarela.Admission
import Pasarela.Settling
import Pasarela.AuthRoutes
import Pasarela.SecretRotation
