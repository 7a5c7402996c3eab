import LuoYun.Base
import LuoYun.Util.Text
import LuoYun.Util.Packet
import LuoYun.Lib.Loop
import LuoYun.Util.PacketSpec
import LuoYun.Proof.Framing
import LuoYun.Clc.Entity
import LuoYun.Proof.EntityInv
import LuoYun.Util.Auth
import LuoYun.Util.Xml
import LuoYun.Clc.State
import LuoYun.Clc.Postgres
import LuoYun.Clc.Job
import LuoYun.Clc.Dispatch
import LuoYun.Clc.EvNode
import LuoYun.Clc.EvOsm
import LuoYun.Clc.Events
import LuoYun.Proof.Outside
import LuoYun.Lib.Outcome
import LuoYun.Proof.Effect
import LuoYun.Proof.JobEffect
import LuoYun.Proof.QuietDb
import LuoYun.Proof.NodeEffect
import LuoYun.Proof.PacketEffect
import LuoYun.Lib.Machine
import LuoYun.Clc.World
import LuoYun.Proof.RunInv
import LuoYun.Proof.StatusOrder
import LuoYun.Proof.Identity
import LuoYun.Proof.CleanSlots
import LuoYun.Proof.DataType
import LuoYun.Proof.NonInterference
import LuoYun.Clc.Queue
import LuoYun.Clc.Links
import LuoYun.Proof.Exclusive
import LuoYun.Proof.JobFrame
import LuoYun.Proof.Traversal
import LuoYun.Proof.Stuck
import LuoYun.Clc.JobInit
import LuoYun.Proof.JobTable
import LuoYun.Proof.Traffic
import LuoYun.Proof.LinkEffect
import LuoYun.Proof.Target
import LuoYun.Proof.Throttle
import LuoYun.Lib.Fat
import LuoYun.Compute.Ini
import LuoYun.Proof.Ini
import LuoYun.Web.Instance
import LuoYun.Proof.InstanceKey
import LuoYun.Compute.Mcast
import LuoYun.Proof.Mcast
import LuoYun.Lib.Gapped
import LuoYun.Osm.Sockrecv
import LuoYun.Proof.Sockrecv
import LuoYun.Lib.Session
import LuoYun.Lib.Table
import LuoYun.Web.Storage
import LuoYun.Proof.Storage
import LuoYun.Web.Network
import LuoYun.Proof.Network
import LuoYun.Web.Quota
import LuoYun.Proof.Quota
import LuoYun.Proof.OwnPacket
import LuoYun.Proof.JobCheck
import LuoYun.Clc.Schedule
import LuoYun.Proof.Schedule
import LuoYun.Proof.Admission
import LuoYun.Proof.Fallback
import LuoYun.Compute.NodeInfo
import LuoYun.Compute.Events
import LuoYun.Proof.NodeInfo
import LuoYun.Lib.Prog
import LuoYun.Compute.Files
import LuoYun.Compute.DomainXml
import LuoYun.Proof.DataDisk
import LuoYun.Compute.Domain
import LuoYun.Lib.Threads
import LuoYun.Proof.DomainCalls
import LuoYun.Proof.Locks
import LuoYun.Proof.Disks
import LuoYun.Proof.Images
import LuoYun.Lib.Rc4
import LuoYun.Osm.Lyauth
import LuoYun.Proof.Lyauth
import LuoYun.Web.Python
import LuoYun.Web.Pagination
import LuoYun.Web.Mac
import LuoYun.Web.Account
import LuoYun.Web.Populate
import LuoYun.Proof.Populate
import LuoYun.Web.Delete
import LuoYun.Compute.DomainBuf
import LuoYun.Proof.Buffers
import LuoYun.Proof.Robust
import LuoYun.Proof.Forge
import LuoYun.Lib.Base64
import LuoYun.Util.Base64
import LuoYun.Proof.Base64
import LuoYun.Proof.Obey
import LuoYun.Lib.Query
import LuoYun.Web.Url
import LuoYun.Proof.Url
import LuoYun.Web.Stream
import LuoYun.Proof.Stream
import LuoYun.Web.Vote
import LuoYun.Proof.Vote
import LuoYun.Web.PublicKey
import LuoYun.Proof.PublicKey
import LuoYun.Web.Message
import LuoYun.Proof.Message
import LuoYun.Web.Form
import LuoYun.Web.ResetPass
import LuoYun.Proof.ResetPass
import LuoYun.Web.Email
import LuoYun.Proof.Email
import LuoYun.Web.Mail
import LuoYun.Proof.Mail
import LuoYun.Web.Tag
import LuoYun.Proof.Tag
import LuoYun.Compute.NetStat
import LuoYun.Proof.NetStat
import LuoYun.Lib.Optparse
import LuoYun.Web.Firewall
import LuoYun.Proof.Firewall
import LuoYun.Lib.Markup
import LuoYun.Util.PlainXml
import LuoYun.Proof.Requests
import LuoYun.Proof.Answers
import LuoYun.Lib.Duplex
import LuoYun.Proof.FirstContact
