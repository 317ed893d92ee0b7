import SimpleSSD.FTL.Consistency
import SimpleSSD.FTL.Retention
import SimpleSSD.FTL.Occupancy
import SimpleSSD.FTL.Windows
import SimpleSSD.FTL.Programming
import SimpleSSD.HIL.NVMe.Integrity
import SimpleSSD.HIL.NVMe.Arbitration
import SimpleSSD.SIL.NVMe.Agreement
import SimpleSSD.ICL.WriteBack
import SimpleSSD.SIL.NVMe.Protocol
import SimpleSSD.HIL.NVMe.Completion
import SimpleSSD.HIL.Delivery
import SimpleSSD.PAL.Bijection
import SimpleSSD.HIL.NVMe.Identifiers
import SimpleSSD.HIL.NVMe.Isolation
import SimpleSSD.HIL.NVMe.Flight
import SimpleSSD.SIL.NVMe.Command
import SimpleSSD.SIL.None.Driver
import SimpleSSD.PAL.Loading
import SimpleSSD.IGL.Replay
import SimpleSSD.FTL.Requeue
import SimpleSSD.FTL.Occasion
import SimpleSSD.FTL.Emptying
import SimpleSSD.FTL.Segments
import SimpleSSD.FTL.Reserve
import SimpleSSD.FTL.Insertion
import SimpleSSD.FTL.Trimming
import SimpleSSD.FTL.Choice
import SimpleSSD.FTL.Wear
import SimpleSSD.FTL.RefreshCount
import SimpleSSD.FTL.Layers
import SimpleSSD.ICL.Flushing
import SimpleSSD.ICL.Trimming
import SimpleSSD.FTL.Sampling
import SimpleSSD.FTL.Warmup
import SimpleSSD.FTL.PoolFilling
import SimpleSSD.FTL.Exhaustion
import SimpleSSD.FTL.Statistics
import SimpleSSD.HIL.BusyTime
import SimpleSSD.ICL.Construction
import SimpleSSD.ICL.Placement
import SimpleSSD.HIL.NVMe.Tiling
import SimpleSSD.ICL.Utilization
import SimpleSSD.ICL.Formatting
import SimpleSSD.HIL.NVMe.Scatter
import SimpleSSD.SIL.NVMe.Buffer
import SimpleSSD.HIL.NVMe.Deletion
import SimpleSSD.HIL.NVMe.Trimming
import SimpleSSD.HIL.NVMe.Creation
import SimpleSSD.HIL.NVMe.Coalescing
import SimpleSSD.Util.Delivery
import SimpleSSD.Util.Usage
import SimpleSSD.FTL.UnitStates
import SimpleSSD.IGL.RangeCheck
import SimpleSSD.IGL.RequestGenerator
import SimpleSSD.PAL.OpBusyTime
import SimpleSSD.PAL.MergedTimeSlots
import SimpleSSD.PAL.Search
import SimpleSSD.PAL.Booking
import SimpleSSD.Data.BitField
import SimpleSSD.Data.Linearization
import SimpleSSD.Data.Pages
import SimpleSSD.Data.Store
import SimpleSSD.HIL.NVMe.ChunkAddress
import SimpleSSD.HIL.NVMe.ChunkMask
import SimpleSSD.HIL.NVMe.ChunkOrder
import SimpleSSD.HIL.NVMe.ChunkReset
import SimpleSSD.HIL.NVMe.DataPath
import SimpleSSD.PAL.Exclusion
import SimpleSSD.Data.Task
import SimpleSSD.CPU.Choice
import SimpleSSD.Data.Circuit
import SimpleSSD.Data.BigEndian
import SimpleSSD.HIL.UFS.Device
import SimpleSSD.HIL.UFS.Exchange
import SimpleSSD.HIL.UFS.Host
import SimpleSSD.Data.Flags
import SimpleSSD.HIL.UFS.Slots
import SimpleSSD.HIL.UFS.Queries
import SimpleSSD.HIL.UFS.Wakeups
