import RomCloud.Lib.Fault
import RomCloud.SaveSync.CommonAncestor
import RomCloud.SaveSync.JournalHistory
import RomCloud.SaveSync.TransactionSafety
import RomCloud.SaveSync.QuickSyncCursor
import RomCloud.SaveSync.IndexRetry
import RomCloud.SaveSync.StalePlan
import RomCloud.SaveSync.FullSyncRepair
import RomCloud.SaveSync.PlanFixpoint
import RomCloud.SaveSync.ContainerMerge
import RomCloud.SaveSync.DurableState
import RomCloud.SaveSync.ConflictHistory
import RomCloud.SaveSync.OneSidedChange
import RomCloud.SaveSync.StateRoundTrip
import RomCloud.SaveSync.ConflictPrompts
import RomCloud.Cache.Ownership
import RomCloud.Cache.PinProtection
import RomCloud.Downloads.OfflineBoundary
import RomCloud.Downloads.WorkerContainment
import RomCloud.Library.RenderFrame
import RomCloud.Library.MediaTruth
import RomCloud.Storage.PinnedBatch
import RomCloud.Lifecycle.Update
import RomCloud.Mount.WorkerLock
import RomCloud.Modes.DirectLinks
import RomCloud.Catalog.HidingEvidence
import RomCloud.Catalog.PinsKept
import RomCloud.Catalog.Convergence
import RomCloud.Proxies.Recovery
import RomCloud.Containers.Ps1Hash
import RomCloud.Containers.FolderStaging
import RomCloud.Containers.FolderVerified
import RomCloud.Web.AccessControl
import RomCloud.SaveSync.Settle
import RomCloud.SaveSync.InterruptedCommit
import RomCloud.Selection.CardGroups
import RomCloud.Selection.GameGroups
import RomCloud.Downloads.StagedData
import RomCloud.SaveSync.IndexRebase
import RomCloud.Cache.DependencyClosure
import RomCloud.Cache.DescriptorFormats
import RomCloud.SaveSync.ManifestCollision
import RomCloud.Ports.GamelistRuns
import RomCloud.SaveSync.GameStart
import RomCloud.Cache.CueAgreement
import RomCloud.SaveSync.CompatibilityRecovery
import RomCloud.Mount.MountIdentity
import RomCloud.SaveSync.SharedRewriting
import RomCloud.Containers.Ps1Staging
import RomCloud.Transfer.GameDelivery
