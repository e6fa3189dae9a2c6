import OpenAmp.Lib.Transition
import OpenAmp.Lib.Binding
import OpenAmp.Lib.Lifecycle
import OpenAmp.Lib.Bytes
import OpenAmp.Lib.Pointer
import OpenAmp.Lib.Ring
import OpenAmp.Lib.Linked
import OpenAmp.Lib.DoublyLinked
import OpenAmp.Lib.Window
import OpenAmp.Lib.Traced
import OpenAmp.Lib.Tally
import OpenAmp.Lib.Session
import OpenAmp.Lib.Guard
import OpenAmp.Lib.Flags
import OpenAmp.Metal.Bitmap
import OpenAmp.Metal.Io
import OpenAmp.Metal.BlockCopy
import OpenAmp.Metal.BlockIo
import OpenAmp.Metal.Paging
import OpenAmp.Metal.Shmem
import OpenAmp.Metal.LinkedList
import OpenAmp.Metal.Irq
import OpenAmp.Metal.Softirq
import OpenAmp.Metal.SoftirqDispatch
import OpenAmp.Metal.IrqThread
import OpenAmp.Metal.Mutex
import OpenAmp.Metal.GenericMutex
import OpenAmp.Metal.ConditionLive
import OpenAmp.Virtio.Ring
import OpenAmp.Virtio.Virtqueue
import OpenAmp.Virtio.System
import OpenAmp.Virtio.Invariant
import OpenAmp.Virtio.Preservation
import OpenAmp.Virtio.Queue
import OpenAmp.Virtio.Fifo
import OpenAmp.Virtio.Unchecked
import OpenAmp.Virtio.Notify
import OpenAmp.Virtio.Mmio
import OpenAmp.Virtio.Untrusted
import OpenAmp.Rpmsg.Endpoint
import OpenAmp.Rpmsg.Address
import OpenAmp.Rpmsg.Creation
import OpenAmp.Lib.Counted
import OpenAmp.Rpmsg.Threads
import OpenAmp.Rpmsg.Lifetime
import OpenAmp.Rpmsg.NameService
import OpenAmp.Rpmsg.Buffer
import OpenAmp.Rpmsg.Reclaimer
import OpenAmp.Rpmsg.TxSystem
import OpenAmp.Rpmsg.TxInvariant
import OpenAmp.Rpmsg.TxPreservation
import OpenAmp.Rpmsg.TxRoles
import OpenAmp.Rpmsg.TxRun
import OpenAmp.Rpmsg.TxOwnership
import OpenAmp.Rpmsg.Reception
import OpenAmp.Rpmsg.RxSystem
import OpenAmp.Rpmsg.RxInvariant
import OpenAmp.Rpmsg.Hands
import OpenAmp.Rpmsg.RxReturn
import OpenAmp.Rpmsg.Beside
import OpenAmp.Remoteproc.RscTable
import OpenAmp.Remoteproc.NotifyId
import OpenAmp.Remoteproc.Virtio
import OpenAmp.Remoteproc.Memory
import OpenAmp.Remoteproc.RscParser
import OpenAmp.Lib.Fuel
import OpenAmp.Remoteproc.Enumeration
import OpenAmp.Remoteproc.DataRun
import OpenAmp.Remoteproc.Firmware
import OpenAmp.Remoteproc.HeaderAny
import OpenAmp.Remoteproc.Honest
import OpenAmp.Remoteproc.IdSearch
import OpenAmp.Remoteproc.ReadBounds
import OpenAmp.Remoteproc.SafeLoad
import OpenAmp.Remoteproc.Stream
import OpenAmp.Remoteproc.NoblockLoad
import OpenAmp.Rpmsg.Link
import OpenAmp.Rpmsg.LaneQueue
import OpenAmp.Rpmsg.LaneInvariant
import OpenAmp.Rpmsg.Delivery
import OpenAmp.Rpmsg.HostReceive
import OpenAmp.Rpmsg.Length
import OpenAmp.Rpmsg.AppLink
import OpenAmp.Rpmsg.AppInvariant
import OpenAmp.Rpmsg.BufferSize
import OpenAmp.Rpmsg.SizeQuery
import OpenAmp.Rpmsg.Passage
import OpenAmp.Rpmsg.PassageLink
import OpenAmp.Rpmsg.Wakeup
import OpenAmp.Lib.Align
import OpenAmp.Remoteproc.Rollback
import OpenAmp.Remoteproc.Lifecycle
import OpenAmp.Remoteproc.Queues
import OpenAmp.Remoteproc.InitRetry
import OpenAmp.Remoteproc.Notified
import OpenAmp.Service.Rpc
import OpenAmp.Interface.Window
import OpenAmp.Interface.Registry
import OpenAmp.Interface.NodeEndpoint
import OpenAmp.Interface.NodeLifetime
import OpenAmp.Interface.Announcement
import OpenAmp.Interface.DefaultCallback
import OpenAmp.Interface.AppSend
import OpenAmp.Interface.Layout
import OpenAmp.Remoteproc.RingSetup
import OpenAmp.Remoteproc.Translation
import OpenAmp.Remoteproc.ChosenAddress
import OpenAmp.Remoteproc.ConfigSpace
import OpenAmp.Proxy.Retarget
import OpenAmp.Proxy.Write
import OpenAmp.Proxy.Read
import OpenAmp.Proxy.FilesSession
import OpenAmp.Utils.Strcpy
import OpenAmp.Rpmsg.NsMessage
import OpenAmp.Rpmsg.StartUp
import OpenAmp.Metal.GenericCondition
