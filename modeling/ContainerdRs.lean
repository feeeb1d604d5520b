import ContainerdRs.Lib.Transition
import ContainerdRs.Lib.OrdMap
import ContainerdRs.Lib.InodeFs
import ContainerdRs.Lib.Separators
import ContainerdRs.Lib.BigEndian
import ContainerdRs.Lib.FileTree
import ContainerdRs.Lib.Overwrite
import ContainerdRs.Lib.Incremental
import ContainerdRs.Lib.Pump
import ContainerdRs.Lib.Fallible
import ContainerdRs.Lib.AnyOrder
import ContainerdRs.CoreTypes
import ContainerdRs.Content.Store
import ContainerdRs.Content.Integrity
import ContainerdRs.Content.Cleanup
import ContainerdRs.Content.Commits
import ContainerdRs.Metadata.Records
import ContainerdRs.Metadata.Store
import ContainerdRs.Metadata.Refinement
import ContainerdRs.Images.Pull
import ContainerdRs.Images.Gc
import ContainerdRs.Cri.Lifecycle
import ContainerdRs.Cri.StateHistory
import ContainerdRs.Cri.Log
import ContainerdRs.Cri.Images
import ContainerdRs.Cri.ImageLookup
import ContainerdRs.Cri.SnapshotGc
import ContainerdRs.Cri.ImageRace
import ContainerdRs.Cri.Spdy.NvCodec
import ContainerdRs.Cri.Spdy.Frame
import ContainerdRs.Cri.Spdy.Roundtrip
import ContainerdRs.Cri.Spdy.ReadLoop
import ContainerdRs.Snapshots.Diff
import ContainerdRs.Snapshots.Containment
import ContainerdRs.Snapshots.Merge
import ContainerdRs.Snapshots.MergeRefinement
import ContainerdRs.Runtime.Capabilities
import ContainerdRs.Runtime.Bundle
import ContainerdRs.Runtime.CapabilitySets
import ContainerdRs.Cri.Spdy.Demux
import ContainerdRs.Cri.Spdy.HalfClose
import ContainerdRs.Cri.Spdy.Slices
import ContainerdRs.Cri.Spdy.Returns
import ContainerdRs.Cri.PodIntegrity
import ContainerdRs.Cri.Reconcile
import ContainerdRs.Cri.ReconcileCrash
import ContainerdRs.Cri.RecordRaces
import ContainerdRs.Cri.PodSteps
import ContainerdRs.Cri.Holders
import ContainerdRs.Cri.ReadyPods
import ContainerdRs.Cri.Queries
import ContainerdRs.Cri.Readoption
import ContainerdRs.Runtime.Limits
import ContainerdRs.Cri.Resources
import ContainerdRs.Cri.TagRace
import ContainerdRs.Images.Blobs
import ContainerdRs.Cri.BlobGc
import ContainerdRs.Snapshots.Codec
import ContainerdRs.Images.PullSteps
import ContainerdRs.Images.PullIntegrity
import ContainerdRs.Images.ExtractedLayer
import ContainerdRs.Images.SnapshotInvariant
import ContainerdRs.Images.CompleteSnapshots
import ContainerdRs.Images.HonestPull
import ContainerdRs.Images.PullAlone
import ContainerdRs.Cri.Streaming.Sessions
import ContainerdRs.Cri.Streaming.WsPortForward
import ContainerdRs.Cri.Spdy.Streams
import ContainerdRs.Cri.Streaming.SpdyPortForward
import ContainerdRs.Cri.Streaming.Relay
import ContainerdRs.Cri.Streaming.Exec
import ContainerdRs.Cri.Streaming.ExecOutput
import ContainerdRs.Cri.Streaming.ExecProcess
import ContainerdRs.Cri.Streaming.ExecWedge
import ContainerdRs.Cri.LogRotation
import ContainerdRs.Cri.Events
import ContainerdRs.Cri.CreateContainer
import ContainerdRs.Sandbox.Cni
import ContainerdRs.Cri.RunPodSandbox
import ContainerdRs.Cri.SandboxObjects
import ContainerdRs.Cri.Spdy.StreamEnd
import ContainerdRs.Snapshots.WhiteoutFrame
import ContainerdRs.Images.DockerCfg
import ContainerdRs.Images.ResolveAuth
import ContainerdRs.Images.HostsToml
import ContainerdRs.Cri.ImageUser
import ContainerdRs.Lib.GatedRules
import ContainerdRs.Runtime.Privileged
import ContainerdRs.Runtime.Seccomp
import ContainerdRs.Runtime.Composition
import ContainerdRs.Runtime.Devices
import ContainerdRs.Cri.LookupsAgree
import ContainerdRs.Sandbox.PortMappings
import ContainerdRs.Cri.ReconcileOutcome
import ContainerdRs.Cri.Identities
import ContainerdRs.Cri.StopTimeout
import ContainerdRs.Lib.HashChain
import ContainerdRs.Digests
import ContainerdRs.Images.ChainIds
import ContainerdRs.Cri.References
import ContainerdRs.Lib.LatestEntries
import ContainerdRs.Runtime.Environment
import ContainerdRs.Cri.Spdy.Truncation
import ContainerdRs.Cri.NetworkChain
import ContainerdRs.Sandbox.ConfList
import ContainerdRs.Lib.FairLock
import ContainerdRs.Cri.Locks
import ContainerdRs.Lib.Broadcast
import ContainerdRs.Cri.Supervision
import ContainerdRs.Cri.Spdy.Writer
import ContainerdRs.Cri.Streaming.Attach
import ContainerdRs.Cri.Streaming.AttachStdin
import ContainerdRs.Cri.EventStream
import ContainerdRs.Cri.StoredImages
import ContainerdRs.Cri.CreateFromImage
import ContainerdRs.Content.Reads
import ContainerdRs.Cri.UnpackRace
import ContainerdRs.Cri.ExecSync
import ContainerdRs.Content.Atomic
import ContainerdRs.Cri.DiskUsage
import ContainerdRs.Cri.SandboxRecords
import ContainerdRs.Cri.RootfsOwner
import ContainerdRs.Cri.PodNamespaces
import ContainerdRs.Lib.Words
import ContainerdRs.Runtime.CgroupStats
