import Designate.Proof.Frame
import Designate.Proof.Hashes
import Designate.Proof.SerialRange
import Designate.Proof.Soa
import Designate.Proof.Honest
import Designate.Proof.ZoneLock
import Designate.Proof.Atomic
import Designate.Proof.Serialised
import Designate.Proof.ZoneTree
import Designate.Proof.Ttl
import Designate.Proof.Mirrored
import Designate.Proof.ZoneUpdate
import Designate.Proof.Transfers
import Designate.Proof.Tenants
import Designate.Proof.TransferSafety
import Designate.Proof.Quotas
import Designate.Proof.Cuts
import Designate.Proof.ZoneSync
import Designate.Proof.Imports
import Designate.Proof.Sink
import Designate.Proof.FloatingIps
import Designate.Proof.StatusMessages
import Designate.Nearest
import Designate.Central.Purge
import Designate.Proof.Labels
import Designate.Proof.Notification
import Designate.Proof.Shards
import Designate.Proof.Consensus
import Designate.Proof.Paginate
import Designate.Proof.RecordSetListing
import Designate.Central.Acls
import Designate.Proof.AclAtomic
import Designate.Proof.ViewPriorities
import Designate.Central.Pools
import Designate.Central.ViewCalls
import Designate.Proof.PoolNs
import Designate.Proof.ViewCalls
import Designate.Proof.ViewReferences
import Designate.Mdns.Handler
import Designate.Heap
import Designate.Lockstep
import Designate.Objects.Base
import Designate.Objects.Primitive
import Designate.Packing
import Designate.PoolManager.Cache
import Designate.PoolManager.TargetSync
import Designate.Proof.Copies
import Designate.Proof.CopyApart
import Designate.Proof.MdnsAgree
import Designate.Proof.PoolCache
import Designate.Proof.Primitive
import Designate.Proof.Retry
import Designate.Proof.TargetSync
import Designate.PoolManager.Reports
import Designate.Proof.Reports
import Designate.Central.PoolFiles
import Designate.Central.PoolReferences
import Designate.DnsService
import Designate.Glob
import Designate.LimitNotify
import Designate.Mdns.Notify
import Designate.Objects.Adapters
import Designate.Objects.ZoneAdapter
import Designate.PoolManager.Deletion
import Designate.Proof.Adapters
import Designate.Proof.DnsService
import Designate.Proof.LimitNotify
import Designate.Proof.ListFilters
import Designate.Proof.Notify
import Designate.Proof.PoolContents
import Designate.Proof.PoolFiles
import Designate.Proof.PoolReferences
import Designate.Proof.Purge
import Designate.Proof.RecordSetDeletion
import Designate.Proof.Scheduler
import Designate.Proof.Deletion
import Designate.Objects.Rdata
import Designate.Objects.RecordSet
import Designate.Proof.EntryFormat
import Designate.Proof.FloatingIpLookup
import Designate.Proof.Formats
import Designate.Proof.PoolItems
import Designate.Proof.PoolReconcile
import Designate.Proof.RecordSetStatus
import Designate.Proof.RecoverShard
import Designate.Proof.Superzone
import Designate.Proof.Touch
import Designate.Proof.ZonePoller
import Designate.Regex
import Designate.Schema.Expressions
import Designate.Proof.Names
import Designate.Proof.RecordSetAction
import Designate.Objects.RdataText
import Designate.Proof.RdataText
import Designate.Central.SoaRecord
import Designate.Proof.SoaRecord
import Designate.Objects.ZoneMaster
import Designate.Proof.ZoneMaster
import Designate.Objects.Changes
import Designate.Proof.Changes
import Designate.Proof.StorageQuota
import Designate.Agent.Djbdns
import Designate.Proof.Djbdns
import Designate.Agent.Knot2
import Designate.Proof.Knot2
import Designate.Proof.Partition
import Designate.Agent.Gdnsd
import Designate.PrefixCode
import Designate.Proof.Gdnsd
import Designate.Glob.Settle
import Designate.Sqlalchemy.ReverseNames
import Designate.Proof.ReverseNames
import Designate.Calls
import Designate.Storage.ReverseColumn
import Designate.Proof.ReverseColumn
import Designate.Coordination
import Designate.Proof.Coordination
import Designate.Proof.Hierarchy
import Designate.Agent.Handler
import Designate.Proof.Agents
import Designate.Proof.Publication
