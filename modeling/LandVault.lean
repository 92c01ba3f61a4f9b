import LandVault.Identity.Escalation
import LandVault.ApiServer.TrustScore
import LandVault.Evidence.ActorReference
import LandVault.Evidence.IntegrityFailure
import LandVault.Identity.Acceptance
import LandVault.Identity.Archival
import LandVault.Identity.AuthInput
import LandVault.Identity.Expiry
import LandVault.Identity.Lockout
import LandVault.Identity.Replay
import LandVault.Kernel.AuditConcurrency
import LandVault.Kernel.AuditVerifier
import LandVault.Kernel.Authorization
import LandVault.Kernel.DecisionOrder
import LandVault.Kernel.RateLimit
import LandVault.ParcelRows
import LandVault.Registry.Holders
import LandVault.Spatial.CanonicalBoundary
import LandVault.Spatial.WktJudgement
import LandVault.Spelling
import LandVault.Registry.Numbering
import LandVault.Registry.Provenance
import LandVault.Spatial.Succession
import LandVault.Registry.Edits
