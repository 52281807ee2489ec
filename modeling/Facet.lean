import Facet.HashMap
import Facet.Machine
import Facet.Streak
import Facet.Service
import Facet.LockManager
import Facet.LockRuns
import Facet.PostgresLock
import Facet.UnlockExpiry
import Facet.Jwt
import Facet.Authorization
import Facet.PostgresAuthorization
import Facet.RenewableStore
import Facet.IndexConsistency
import Facet.TokenManager
import Facet.TokenIssuance
import Facet.RenewableTable
import Facet.TokenTenancy
import Facet.RenewalExpiry
import Facet.TokenInterleaving
import Facet.TokenStore
import Facet.TokenClient
import Facet.TokenClientSteps
import Facet.TokenClientRuns
import Facet.TokenEndpoint
import Facet.Text
import Facet.Base64
import Facet.Did
import Facet.Verifier
import Facet.UrlSyntax
import Facet.Vault
import Facet.VaultIsolation
import Facet.TokenStoreAgreement
import Facet.VaultEngine
import Facet.VaultSigning
import Facet.JwtGenerator
import Facet.KeyResolver
import Facet.KeyRotation
import Facet.KeyCacheRuns
import Facet.VaultAuth
import Facet.VaultRenewal
import Facet.VaultProvider
import Facet.TokenFileRuns
import Facet.TokenExchange
import Facet.SigletConfig
import Facet.Assembly
import Facet.Signaling
import Facet.FlowCleanup
import Facet.ClaimMapper
import Facet.TransferTypes
import Facet.FlowLifecycle
import Facet.FlowIssuance
import Facet.ClaimPayload
import Facet.KeyedList
import Facet.ClaimMerge
import Facet.JsonText
import Facet.JsonUnwrap
import Facet.CredentialFunctions
import Facet.S3RoundTrip
import Facet.TokenRefresh
import Facet.AdvertisedExpiry
import Facet.AuthMiddleware
import Facet.RefreshProtocol
import Facet.RefreshRace
import Facet.S3Operation
import Facet.S3Proxy
import Facet.S3Action
import Facet.S3Resource
import Facet.RegexSyntax
import Facet.S3Rules
import Facet.UriReference
import Facet.DidUrl
import Facet.CheckedArithmetic
import Facet.ExpiryArithmetic
import Facet.Backoff
import Facet.LockRetries
import Facet.TokenEviction
import Facet.MemoTable
import Facet.ProgramCache
import Facet.Base58
import Facet.Multibase
import Facet.JwksCache
import Facet.Registry
import Facet.TableRotation
import Facet.RowLocks
import Facet.LockTransactions
import Facet.Serde
import Facet.MappingJson
import Facet.KeyedStore
import Facet.MappingStores
import Facet.ManagementApi
import Facet.ManagementRuns
import Facet.TokenApi
import Facet.TokenApiRuns
import Facet.S3Gateway
import Facet.JoinSet
import Facet.SocketAddr
import Facet.ServerRuns
