import CarbonVeritas.TransitionRun
import CarbonVeritas.Programs
import CarbonVeritas.SharedTypes
import CarbonVeritas.HostCalls
import CarbonVeritas.CreditRegistry
import CarbonVeritas.CreditRegistrySpec
import CarbonVeritas.RegistryLifecycle
import CarbonVeritas.Ledger
import CarbonVeritas.RegistryGovernance
import CarbonVeritas.RegistryParameters
import CarbonVeritas.Marketplace
import CarbonVeritas.RetirementTracker
import CarbonVeritas.MerkleBridge
import CarbonVeritas.World
import CarbonVeritas.Escrow
import CarbonVeritas.Delivery
import CarbonVeritas.RetirementSafety
import CarbonVeritas.EscrowRecovery
import CarbonVeritas.Wiring
import CarbonVeritas.Bridging
import CarbonVeritas.QuorumVote
import CarbonVeritas.VoteMirror
import CarbonVeritas.VoteOutcome
import CarbonVeritas.TokenIds
import CarbonVeritas.VoteThresholds
import CarbonVeritas.Ownership
import CarbonVeritas.BridgeDedup
import CarbonVeritas.RetiredTonnage
import CarbonVeritas.RetirementAgreement
import CarbonVeritas.BridgeOrigin
import CarbonVeritas.Roster
import CarbonVeritas.VerifierStake
import CarbonVeritas.StakeRuns
import CarbonVeritas.StakeRegister
import CarbonVeritas.StakeSolvency
import CarbonVeritas.Attribution
import CarbonVeritas.StakeCooldown
import CarbonVeritas.RevenueSplit
import CarbonVeritas.RevenueShares
import CarbonVeritas.RevenueConservation
import CarbonVeritas.JsNumbers
import CarbonVeritas.JsValues
import CarbonVeritas.EventParser
import CarbonVeritas.IndexerSync
import CarbonVeritas.IndexerSafety
import CarbonVeritas.IndexerDelivery
import CarbonVeritas.MirrorSpec
import CarbonVeritas.MirrorReplay
import CarbonVeritas.ContractEvents
import CarbonVeritas.ApiScVal
import CarbonVeritas.Follower
import CarbonVeritas.ChainFeed
import CarbonVeritas.MirrorFits
import CarbonVeritas.MirrorRefinement
import CarbonVeritas.AuthService
import CarbonVeritas.AuthSpec
import CarbonVeritas.Challenges
import CarbonVeritas.ChallengeRace
import CarbonVeritas.ChallengeLogins
import CarbonVeritas.Sessions
import CarbonVeritas.ApiBackend
import CarbonVeritas.StellarService
import CarbonVeritas.ApiQueries
import CarbonVeritas.MarketplaceService
import CarbonVeritas.OfferAgreement
import CarbonVeritas.FillRaces
import CarbonVeritas.CreditsService
import CarbonVeritas.RetirementService
import CarbonVeritas.RetirementMirror
import CarbonVeritas.IndexerPrograms
import CarbonVeritas.TwoWriters
import CarbonVeritas.OfferAccounts
import CarbonVeritas.Payments
import CarbonVeritas.Overselling
import CarbonVeritas.Pages
import CarbonVeritas.Listings
import CarbonVeritas.ExpiredOffers
import CarbonVeritas.OwnerIndex
import CarbonVeritas.IndexPages
import CarbonVeritas.BatchRetirement
import CarbonVeritas.ApprovalWindow
import CarbonVeritas.KeyedRuns
import CarbonVeritas.RateLimit
import CarbonVeritas.CertificatesService
import CarbonVeritas.BridgeService
import CarbonVeritas.BridgeRoundTrip
import CarbonVeritas.Interference
import CarbonVeritas.BridgeRoots
import CarbonVeritas.NumberArguments
import CarbonVeritas.CreditIssuance
import CarbonVeritas.OfferUnits
import CarbonVeritas.RequestIds
import CarbonVeritas.Stretches
import CarbonVeritas.Resync
import CarbonVeritas.Csv
import CarbonVeritas.ReportingService
import CarbonVeritas.OrderedMap
import CarbonVeritas.UtcCalendar
import CarbonVeritas.Scope3Reports
import CarbonVeritas.SeparatedFields
import CarbonVeritas.CertificateHashes
import CarbonVeritas.WebhooksService
import CarbonVeritas.TokenBuckets
import CarbonVeritas.RateLimitGuard
import CarbonVeritas.SequencedLedger
import CarbonVeritas.SorobanClient
import CarbonVeritas.SorobanRuns
import CarbonVeritas.ValueCodes
import CarbonVeritas.Settlement
import CarbonVeritas.InvokeTermination
import CarbonVeritas.TableQueries
import CarbonVeritas.ProgramTraces
import CarbonVeritas.WebhookRequests
import CarbonVeritas.WebhookOwners
import CarbonVeritas.TokenFlows
import CarbonVeritas.EventHistory
import CarbonVeritas.ApiTransactions
import CarbonVeritas.ListEndpoints
import CarbonVeritas.GuardedPrograms
import CarbonVeritas.VerifiersService
import CarbonVeritas.VerifierRegistrations
