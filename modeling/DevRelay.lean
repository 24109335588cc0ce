import DevRelay.Upload.CrashSafety
import DevRelay.Storage.EpochLaw
import DevRelay.Trust.ApprovalAccounting
import DevRelay.Trust.PairingTerminality
import DevRelay.Journal.TornWrite
import DevRelay.Background.Pipeline
import DevRelay.Snapshot.CheckpointDedup
import DevRelay.Secrets.Exclusion
import DevRelay.Backup.Completeness
import DevRelay.Storage.InactiveEdits
import DevRelay.Remote.RoleSeparation
import DevRelay.Agent.EventDelivery
import DevRelay.Snapshot.HashOrder
import DevRelay.Environment.UnapprovedCommands
import DevRelay.Transport.ReplyOrder
import DevRelay.Trust.PairingAuthentication
import DevRelay.Agent.EditAttribution
import DevRelay.Transport.PairedDevices
import DevRelay.Retention.ReclaimArithmetic
import DevRelay.Core.NestedSecrets
import DevRelay.Upload.SidecarRoundTrip
import DevRelay.Storage.RecoveryConvergence
import DevRelay.Background.DebounceTiming
import DevRelay.Snapshot.PortablePaths
import DevRelay.Snapshot.CapsuleIndexPaths
import DevRelay.Core.SymlinkTargets
import DevRelay.Background.CheckpointDirtiness
import DevRelay.Scheduler.Selection
import DevRelay.Tasks.LogBufferLaw
import DevRelay.Snapshot.LfsRecognition
import DevRelay.Snapshot.SubmoduleInspection
import DevRelay.Tasks.ArtifactRoundTrip
import DevRelay.Transport.Framing
import DevRelay.Remote.Lifetimes
import DevRelay.Transport.KeyExtraction
import DevRelay.Tasks.CapturedOutput
import DevRelay.Editor.LatestContext
import DevRelay.Config.RecoveryAtomicity
import DevRelay.Logging.CredentialedUrls
import DevRelay.Storage.DeviceRevocation
import DevRelay.Logging.LogRotation
import DevRelay.Logging.SecretAssignments
import DevRelay.Tasks.NixDelegation
import DevRelay.Agent.HandoffMetrics
import DevRelay.Environment.Hydration
