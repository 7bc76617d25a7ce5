import Crate.Audit.Framing
import Crate.Audit.Isolation
import Crate.Audit.Probe
import Crate.Audit.Sections
import Crate.Backup.ExplainKeeps
import Crate.Backup.LatestSuffix
import Crate.Backup.Prune
import Crate.Backup.PruneChains
import Crate.Backup.Retained
import Crate.Backup.StreamName
import Crate.Console.AcceptKey
import Crate.Console.Frame
import Crate.Console.FrameRoundTrip
import Crate.Console.Handshake
import Crate.Console.Session
import Crate.Control.Addressing
import Crate.Control.Handlers
import Crate.Control.JailQuery
import Crate.Control.Messages
import Crate.Control.Names
import Crate.Control.PatchRules
import Crate.Control.PoolIsolation
import Crate.Control.Route
import Crate.Daemon.Artifacts
import Crate.Daemon.Auth
import Crate.Daemon.Expiry
import Crate.Daemon.Routes
import Crate.Daemon.TokenExpiry
import Crate.Daemon.TokenIsolation
import Crate.Firewall.Forwarding
import Crate.Firewall.Ipfw
import Crate.Firewall.Lease
import Crate.Firewall.LeaseFaults
import Crate.Firewall.LeaseRegistry
import Crate.Firewall.LeaseRun
import Crate.Firewall.LeaseText
import Crate.Firewall.Outbound
import Crate.Firewall.RootForwarding
import Crate.Firewall.RuleNumbers
import Crate.Firewall.SharedRule
import Crate.Firewall.SlotRuns
import Crate.Firewall.Slots
import Crate.Firewall.Users
import Crate.Foundation.Agreement
import Crate.Foundation.Base64
import Crate.Foundation.ByteBits
import Crate.Foundation.CNumber
import Crate.Foundation.Calendar
import Crate.Foundation.CalendarOrder
import Crate.Foundation.Check
import Crate.Foundation.ColonGroups
import Crate.Foundation.Dependency
import Crate.Foundation.FixedPoint
import Crate.Foundation.FreeScan
import Crate.Foundation.Incremental
import Crate.Foundation.Ini
import Crate.Foundation.JsonText
import Crate.Foundation.KeyedSteps
import Crate.Foundation.LowestFree
import Crate.Foundation.NewestBuckets
import Crate.Foundation.Occurrences
import Crate.Foundation.OrdMap
import Crate.Foundation.OrdSet
import Crate.Foundation.Outcome
import Crate.Foundation.Overlay
import Crate.Foundation.Parts
import Crate.Foundation.PathTree
import Crate.Foundation.Remembered
import Crate.Foundation.Run
import Crate.Foundation.Runs
import Crate.Foundation.Sha1
import Crate.Foundation.ShellWords
import Crate.Foundation.Sort
import Crate.Foundation.Stream
import Crate.Foundation.Subnet
import Crate.Foundation.Substitution
import Crate.Foundation.Substring
import Crate.Foundation.Switch
import Crate.Foundation.Text
import Crate.Foundation.TextTable
import Crate.Foundation.Yaml
import Crate.Gui.Displays
import Crate.Gui.Registry
import Crate.Gui.Sessions
import Crate.Hub.Aggregator
import Crate.Hub.ContainerCount
import Crate.Hub.Failover
import Crate.Hub.KeySearch
import Crate.Hub.RecommendationJson
import Crate.Hub.Scheduling
import Crate.Mac.Portacl
import Crate.Network.Epair
import Crate.Network.HexGroup
import Crate.Network.InterDns
import Crate.Network.Ip6
import Crate.Network.Ip6Agreement
import Crate.Network.Ip6Alloc
import Crate.Network.Ip6Format
import Crate.Network.Ip6Text
import Crate.Network.IpAlloc
import Crate.Network.Ipv4Text
import Crate.Network.LeaseFile
import Crate.Network.NetworkLease
import Crate.Network.WireGuard
import Crate.PerUser.Cidr
import Crate.PerUser.Env
import Crate.PerUser.Ip6Text
import Crate.PerUser.Net
import Crate.PerUser.Rctl
import Crate.PerUser.Subnets
import Crate.PrivOps.Authz
import Crate.PrivOps.Client
import Crate.PrivOps.ClientAgreement
import Crate.PrivOps.DevfsClaim
import Crate.PrivOps.Dispatch
import Crate.PrivOps.FlatObject
import Crate.PrivOps.JailArgv
import Crate.PrivOps.Json
import Crate.PrivOps.JsonRoundTrip
import Crate.PrivOps.NvParse
import Crate.PrivOps.RctlValues
import Crate.PrivOps.TenantIsolation
import Crate.PrivOps.Transport
import Crate.PrivOps.TransportAgreement
import Crate.PrivOps.Validate
import Crate.PrivOps.ValidateReq
import Crate.PrivOps.Verb
import Crate.PrivOps.WireParse
import Crate.Registry.Grammar
import Crate.Registry.IfaceOwner
import Crate.Registry.IfacePairs
import Crate.Registry.JidOwner
import Crate.Registry.NameGate
import Crate.Registry.NameLookup
import Crate.Registry.PathLookup
import Crate.Registry.Restart
import Crate.Registry.SpecRegistry
import Crate.Registry.SpecStore
import Crate.Registry.TextForm
import Crate.Registry.World
import Crate.Run.ShellQuote
import Crate.Run.ThinJail
import Crate.Snmp.AgentX
import Crate.Snmp.GetNext
import Crate.Spec.Absorb
import Crate.Spec.FieldChecks
import Crate.Spec.Fields
import Crate.Spec.KeyOrder
import Crate.Spec.LocalOverride
import Crate.Spec.Merge
import Crate.Spec.MergeYaml
import Crate.Spec.MergedDetails
import Crate.Spec.MergedOptions
import Crate.Spec.OptionColumns
import Crate.Spec.OptionMeaning
import Crate.Spec.OptionOrder
import Crate.Spec.OptionSection
import Crate.Spec.ParseSpec
import Crate.Spec.Preprocess
import Crate.Spec.Profile
import Crate.Spec.Sections
import Crate.Spec.SubstituteVars
import Crate.Spec.Yaml
import Crate.Stack.IpPool
import Crate.Stack.Networks
import Crate.Stack.Policies
import Crate.Stack.PolicyRuns
import Crate.Stack.PoolAddresses
import Crate.Stack.TopoSort
import Crate.Status.Event
import Crate.Status.LineBuffer
import Crate.Trace.Generate
import Crate.Trace.HostileTrace
import Crate.Trace.Render
import Crate.Trace.SpecLines
import Crate.Trace.Summary
import Crate.Trace.Truss
