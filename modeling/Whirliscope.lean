import Whirliscope.Fs.Ext2.Mounting
import Whirliscope.Userspace.LoadSafety
import Whirliscope.Framebuffer.Cursor
import Whirliscope.Memory.HeapGrowth
import Whirliscope.Memory.HeapAllocation
import Whirliscope.Memory.HeapSafety
import Whirliscope.Memory.PageTable
import Whirliscope.Userspace.Syscall
import Whirliscope.Userspace.Confinement
import Whirliscope.Memory.PageMapping
import Whirliscope.Memory.PageTree
import Whirliscope.Memory.PageRefinement
import Whirliscope.Memory.AddressSpaces
import Whirliscope.Memory.SpaceCoherence
import Whirliscope.Userspace.ProcessTable
import Whirliscope.Userspace.Scheduler
import Whirliscope.Userspace.TaskFrames
import Whirliscope.Fs.Ext2.Results
import Whirliscope.Userspace.Tasks
import Whirliscope.Userspace.TaskRuns
import Whirliscope.Userspace.Blocking
import Whirliscope.Fs.Ext2.FileData
import Whirliscope.Fs.Ext2.BlockFormat
import Whirliscope.Fs.Rootfs
import Whirliscope.Fs.Ext2.Volume
import Whirliscope.Fs.Ext2.VolumeAccess
import Whirliscope.Fs.Ext2.VolumeMarking
import Whirliscope.Fs.Ext2.VolumeAllocation
import Whirliscope.Fs.Ext2.FileBlocks
import Whirliscope.Fs.Ext2.FileGrowth
import Whirliscope.Fs.Ext2.PathNames
import Whirliscope.Fs.Ext2.DirectoryScan
import Whirliscope.Userspace.PathResolution
import Whirliscope.Userspace.WorkingDirectories
import Whirliscope.Userspace.HeapBreak
import Whirliscope.Fs.Ext2.Listing
import Whirliscope.Framebuffer.Drawing
import Whirliscope.Framebuffer.Display
import Whirliscope.Fs.Ext2.FileExtension
import Whirliscope.Fs.Ext2.FileShrinking
import Whirliscope.Fs.Ext2.FileResize
import Whirliscope.Fs.Ext2.FileContent
import Whirliscope.Fs.Ext2.FileCalls
import Whirliscope.Userspace.UserCopies
import Whirliscope.Memory.HeapContents
import Whirliscope.Memory.HeapRefusal
import Whirliscope.Memory.PageEntries
import Whirliscope.Library.FreeList
import Whirliscope.Memory.Pmm
import Whirliscope.Libc.Format
import Whirliscope.Library.RelatedRuns
import Whirliscope.Libc.Printing
import Whirliscope.Memory.UserPages
import Whirliscope.Userspace.UserSpace
import Whirliscope.Userspace.LoadedSpace
import Whirliscope.Userspace.ProgramView
import Whirliscope.Userspace.HeapSpace
import Whirliscope.Libc.UserHeap
import Whirliscope.Libc.UserHeapRuns
import Whirliscope.Userspace.FailedLoads
import Whirliscope.Memory.PageUndo
import Whirliscope.App.DecimalSize
import Whirliscope.Kernel.Klog
import Whirliscope.Drivers.Keyboard
import Whirliscope.Drivers.KeyboardModifiers
import Whirliscope.Drivers.KeyboardQueue
import Whirliscope.App.Shell
import Whirliscope.App.LineEditor
import Whirliscope.App.LineArrays
import Whirliscope.App.LineRefinement
import Whirliscope.Libc.NumberFields
import Whirliscope.Framebuffer.Fontgen
import Whirliscope.Memory.HeapRollback
import Whirliscope.Fs.Ext2.FileStore
import Whirliscope.Drivers.AtaProbe
import Whirliscope.Drivers.AtaStore
import Whirliscope.Fs.Ext2.VolumeCopies
import Whirliscope.Library.RecordList
import Whirliscope.Fs.Ext2.DirectoryRecords
import Whirliscope.Fs.Ext2.DirectoryBlocks
import Whirliscope.Fs.Ext2.EntryInsertion
import Whirliscope.Fs.Ext2.EntryRemoval
import Whirliscope.Fs.Ext2.DirectoryCalls
import Whirliscope.Fs.Remount
import Whirliscope.Fs.PowerCycles
import Whirliscope.Fs.AtaRoot
