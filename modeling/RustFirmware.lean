import RustFirmware.Lib.Word
import RustFirmware.Lib.Buffer
import RustFirmware.Lib.Segments
import RustFirmware.Lib.Bytes
import RustFirmware.Lib.Visit
import RustFirmware.Lib.Checked
import RustFirmware.Lib.Text
import RustFirmware.Memory.Types
import RustFirmware.Memory.Allocator
import RustFirmware.Memory.Refinement
import RustFirmware.Memory.PageMap
import RustFirmware.Memory.Seed
import RustFirmware.Memory.Calls
import RustFirmware.DeviceTree.Read
import RustFirmware.DeviceTree.Memory
import RustFirmware.DeviceTree.Tree
import RustFirmware.DeviceTree.Contents
import RustFirmware.DeviceTree.Walk
import RustFirmware.DeviceTree.Lookup
import RustFirmware.Memory.FromFdt
import RustFirmware.Memory.Reservations
import RustFirmware.Memory.Runs
import RustFirmware.DeviceTree.Write
import RustFirmware.DeviceTree.Layout
import RustFirmware.DeviceTree.Checked
import RustFirmware.DeviceTree.Edit
import RustFirmware.DeviceTree.SetProperty
import RustFirmware.DeviceTree.CreateNode
import RustFirmware.Boot.Linux
import RustFirmware.DeviceTree.Room
import RustFirmware.Boot.Chosen
import RustFirmware.Lib.Transition
import RustFirmware.Lib.Budget
import RustFirmware.Lib.Failing
import RustFirmware.Virtio.Queue
import RustFirmware.Virtio.Requests
import RustFirmware.Virtio.BlockDevice
import RustFirmware.Gpt.Read
import RustFirmware.Gpt.Entries
import RustFirmware.Lib.Crc
import RustFirmware.Lib.Numerals
import RustFirmware.Ext4.Volume
import RustFirmware.Ext4.Extents
import RustFirmware.Ext4.Contents
import RustFirmware.Ext4.Directory
import RustFirmware.Ext4.Walk
import RustFirmware.Fat.Entries
import RustFirmware.Fat.Directory
import RustFirmware.Fat.Records
import RustFirmware.Fat.Termination
import RustFirmware.Fat.Names
import RustFirmware.Fat.Tree
import RustFirmware.Fat.Stored
import RustFirmware.Lib.Best
import RustFirmware.Lib.Canonical
import RustFirmware.Memory.Search
import RustFirmware.Memory.Alignment
import RustFirmware.Memory.Restore
import RustFirmware.Memory.Failures
import RustFirmware.Memory.Room
import RustFirmware.Fat.Contents
import RustFirmware.Filesystem.Load
import RustFirmware.DeviceTree.FailedCreate
import RustFirmware.DeviceTree.Failures
import RustFirmware.Fat.Slices
import RustFirmware.Fat.Chains
import RustFirmware.DeviceTree.Nops
import RustFirmware.DeviceTree.Footprints
import RustFirmware.DeviceTree.BlockOrder
import RustFirmware.Gpt.Bursts
import RustFirmware.Gpt.Guid
import RustFirmware.Gpt.Probe
import RustFirmware.Ext4.ExtentTrees
import RustFirmware.Ext4.Image
import RustFirmware.Filesystem.Loaded
import RustFirmware.Print.Format
import RustFirmware.Print.Segments
import RustFirmware.Ext4.Failures
import RustFirmware.Ext4.Resolution
import RustFirmware.Ext4.Composition
import RustFirmware.Lib.LittleEndian
import RustFirmware.Lib.Memory
import RustFirmware.Lib.Registers
import RustFirmware.Virtio.Layout
import RustFirmware.Virtio.Transport
import RustFirmware.Virtio.Handshake
import RustFirmware.Virtio.Configuration
import RustFirmware.Virtio.Machine
import RustFirmware.Virtio.Chains
import RustFirmware.Virtio.Simulation
import RustFirmware.Boot.InMemory
import RustFirmware.Boot.Placement
import RustFirmware.Boot.Handover
import RustFirmware.Boot.Partition
import RustFirmware.Lib.Attempts
import RustFirmware.Gpt.Total
import RustFirmware.Boot.Probe
import RustFirmware.Boot.Firmware
import RustFirmware.DeviceTree.Ranges
import RustFirmware.Boot.Declared
import RustFirmware.Gpt.Table
import RustFirmware.Boot.Listed
import RustFirmware.Boot.Installed
import RustFirmware.Diagnostics.Traps
