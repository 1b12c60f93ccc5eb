import Hiya.Proofs.CredentialLifetime
import Hiya.Proofs.SignCounters
import Hiya.Proofs.CredentialCount
import Hiya.Proofs.EnrollmentRuns
import Hiya.Proofs.FailureCounts
import Hiya.Proofs.StoppedEnrollments
import Hiya.Proofs.UniqueFingers
import Hiya.Proofs.UhidIsolation
import Hiya.Proofs.PendingAssertions
import Hiya.Proofs.TemplateCount
import Hiya.Proofs.Deadlocks
import Hiya.Proofs.Argon2References
import Hiya.Proofs.FailedRegistrations
import Hiya.Proofs.RpIdentity
import Hiya.Proofs.UnknownPairs
import Hiya.Proofs.AuthData
import Hiya.Proofs.PinChanges
import Hiya.Proofs.SshSignatures
import Hiya.Proofs.EntryHistories
import Hiya.Proofs.KeySearch
import Hiya.Proofs.PasswordDraws
import Hiya.Proofs.AuditCoverage
import Hiya.Proofs.EntryRestores
import Hiya.Proofs.OtpCodes
import Hiya.Proofs.SealedTemplates
import Hiya.Proofs.SensorLimits
import Hiya.Proofs.SessionExtensions
import Hiya.Proofs.Blake2bChunks
import Hiya.Proofs.EncoderRuns
import Hiya.Proofs.SshChallenges
import Hiya.Proofs.ConfigReloads
import Hiya.Proofs.EnrollmentLoads
import Hiya.Proofs.TpmHandles
import Hiya.Proofs.SocketCalls
import Hiya.Proofs.VaultUnlocks
import Hiya.Proofs.ClipboardTimers
import Hiya.Proofs.WrappingKeys
import Hiya.Proofs.TpmResponses
