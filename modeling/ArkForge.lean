import ArkForge.Engine.Commitment
import ArkForge.Engine.TornTail
import ArkForge.Engine.DeclaredEffects
import ArkForge.Engine.PossibleEffects
import ArkForge.Ipc.ReceiptIdentity
import ArkForge.Daemon.RestartMonotone
import ArkForge.Daemon.NativeWrite
import ArkForge.Daemon.HonestOutcome
import ArkForge.Provider.GptExtents
import ArkForge.Provider.ReadbackVerdict
import ArkForge.Daemon.OwnPlans
import ArkForge.Provider.LayoutSafety
import ArkForge.Daemon.CompleteOverwrite
import ArkForge.Ipc.Framing
import ArkForge.Daemon.PlanStoreRuns
import ArkForge.Core.HashStandard
import ArkForge.Provider.LayoutDigest
import ArkForge.Transport.Session
import ArkForge.Ipc.UnknownFields
import ArkForge.Artifact.TarHeader
import ArkForge.Standalone.AdmittedDevice
import ArkForge.Standalone.LineageFiles
import ArkForge.Standalone.SealedPort
import ArkForge.Standalone.StableIdentity
import ArkForge.Daemon.StagingKeys
import ArkForge.Daemon.Starts
