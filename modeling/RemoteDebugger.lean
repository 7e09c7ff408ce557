import RemoteDebugger.Framework.Bytes
import RemoteDebugger.Framework.Octal
import RemoteDebugger.Framework.Ustar
import RemoteDebugger.Framework.Prog
import RemoteDebugger.Framework.Visits
import RemoteDebugger.Framework.Run
import RemoteDebugger.Framework.Effects
import RemoteDebugger.Framework.Ledger
import RemoteDebugger.Framework.LinkedList
import RemoteDebugger.Framework.Assign
import RemoteDebugger.Framework.Disk
import RemoteDebugger.Framework.TwoRuns
import RemoteDebugger.Framework.Local
import RemoteDebugger.Framework.Plan
import RemoteDebugger.Framework.CString
import RemoteDebugger.Framework.Substring
import RemoteDebugger.Impl.Archive
import RemoteDebugger.Impl.Cache
import RemoteDebugger.Impl.CacheList
import RemoteDebugger.Impl.Redelivery
import RemoteDebugger.Impl.Json
import RemoteDebugger.Impl.Sanity
import RemoteDebugger.Impl.Token
import RemoteDebugger.Impl.Profile
import RemoteDebugger.Impl.Dispatch
import RemoteDebugger.Impl.Daemon
import RemoteDebugger.Impl.Walkers
import RemoteDebugger.Impl.Execute
import RemoteDebugger.Impl.Config
import RemoteDebugger.Impl.Message
import RemoteDebugger.Impl.WebCfg
import RemoteDebugger.Impl.WebCfgRequest
import RemoteDebugger.Impl.Upload
import RemoteDebugger.Impl.Interface
import RemoteDebugger.Impl.RunCommand
import RemoteDebugger.Impl.Package
import RemoteDebugger.Impl.Sysinfo
import RemoteDebugger.Impl.AllocProfile
import RemoteDebugger.Impl.AllocWebCfg
import RemoteDebugger.Impl.AllocDispatch
import RemoteDebugger.Spec.FileTree
import RemoteDebugger.Spec.Report
import RemoteDebugger.Spec.Category
import RemoteDebugger.Spec.Event
import RemoteDebugger.Spec.Pieces
import RemoteDebugger.Spec.PropertyFile
import RemoteDebugger.Spec.Volume
import RemoteDebugger.Spec.Delivery
import RemoteDebugger.Spec.Payload
import RemoteDebugger.Proof.Archive.Header
import RemoteDebugger.Proof.Archive.Stream
import RemoteDebugger.Proof.Archive.WellFormed
import RemoteDebugger.Proof.Archive.Untar
import RemoteDebugger.Proof.Archive.Numbers
import RemoteDebugger.Proof.Cache.Basic
import RemoteDebugger.Proof.Cache.Heap
import RemoteDebugger.Proof.Cache.Progress
import RemoteDebugger.Proof.Cache.Steps
import RemoteDebugger.Proof.Cache.Once
import RemoteDebugger.Proof.Cache.Pending
import RemoteDebugger.Proof.Dispatch.Token
import RemoteDebugger.Proof.Dispatch.Effects
import RemoteDebugger.Proof.Dispatch.List
import RemoteDebugger.Proof.Dispatch.Resolve
import RemoteDebugger.Proof.Dispatch.Confined
import RemoteDebugger.Proof.Dispatch.Suffix
import RemoteDebugger.Proof.Dispatch.Report
import RemoteDebugger.Proof.Dispatch.Turn
import RemoteDebugger.Proof.Dispatch.Isolation
import RemoteDebugger.Proof.Dispatch.Append
import RemoteDebugger.Proof.Dispatch.Slots
import RemoteDebugger.Proof.Dispatch.Walkers
import RemoteDebugger.Proof.Dispatch.Labels
import RemoteDebugger.Proof.Dispatch.Stops
import RemoteDebugger.Proof.Dispatch.Pieces
import RemoteDebugger.Proof.Dispatch.Case
import RemoteDebugger.Proof.Dispatch.Marker
import RemoteDebugger.Proof.Dispatch.Package
import RemoteDebugger.Proof.Daemon.Steps
import RemoteDebugger.Proof.Daemon.Invariant
import RemoteDebugger.Proof.Daemon.Suffix
import RemoteDebugger.Proof.Daemon.Key
import RemoteDebugger.Proof.Daemon.Download
import RemoteDebugger.Proof.Daemon.Confined
import RemoteDebugger.Proof.Daemon.Packages
import RemoteDebugger.Proof.Sanity.Rewrite
import RemoteDebugger.Proof.Sanity.Gate
import RemoteDebugger.Proof.Sanity.Routes
import RemoteDebugger.Proof.Execute.Quotes
import RemoteDebugger.Proof.Execute.Location
import RemoteDebugger.Proof.Execute.Background
import RemoteDebugger.Proof.Execute.Names
import RemoteDebugger.Proof.Execute.Wait
import RemoteDebugger.Proof.Execute.RunReport
import RemoteDebugger.Proof.Sanity.Check
import RemoteDebugger.Proof.Alloc.Profile
import RemoteDebugger.Proof.Alloc.Node
import RemoteDebugger.Proof.Alloc.Dispatch
import RemoteDebugger.Proof.Config.Merge
import RemoteDebugger.Proof.Config.Priority
import RemoteDebugger.Proof.Config.Lines
import RemoteDebugger.Proof.Config.Grammar
import RemoteDebugger.Proof.WebCfg.Decoder
import RemoteDebugger.Proof.WebCfg.Lookup
import RemoteDebugger.Proof.WebCfg.Issues
import RemoteDebugger.Proof.WebCfg.Blob
import RemoteDebugger.Proof.WebCfg.Requests
import RemoteDebugger.Proof.Alloc.WebCfg
import RemoteDebugger.Proof.Alloc.Turn
import RemoteDebugger.Proof.Interface.Listing
import RemoteDebugger.Proof.Interface.Category
import RemoteDebugger.Proof.Interface.Register
import RemoteDebugger.Proof.Upload.Cleanup
import RemoteDebugger.Proof.Upload.Confined
import RemoteDebugger.Proof.Upload.Sent
import RemoteDebugger.Proof.Upload.Delivered
import RemoteDebugger.Proof.Upload.Suffix
import RemoteDebugger.Proof.Upload.Names
import RemoteDebugger.Proof.Upload.Limits
import RemoteDebugger.Proof.Upload.DirSize
