import La12xx.Base.AutoSize
import La12xx.Base.ModInfo
import La12xx.Base.Partition
import La12xx.Base.Probe
import La12xx.Base.SubProbe
import La12xx.Base.Unwind
import La12xx.Boot.ScatterTable
import La12xx.Boot.Segments
import La12xx.Chardev.Indices
import La12xx.Chardev.PrintString
import La12xx.Chardev.WdogIoctl
import La12xx.Dcs.BringUp
import La12xx.Dcs.Handshake
import La12xx.Dcs.Mailbox
import La12xx.Dcs.Monitor
import La12xx.Dcs.RcuBalance
import La12xx.Dcs.Tbgen
import La12xx.Hawk.Completion
import La12xx.Hawk.Events
import La12xx.Hawk.SwCmd
import La12xx.Ipc.Msi
import La12xx.Ipc.MsiOwner
import La12xx.Ipc.PciAtomic
import La12xx.Ipc.PciHost
import La12xx.Ipc.PciInv
import La12xx.Ipc.PciSpace
import La12xx.Ipc.PciStack
import La12xx.Lib.Aes
import La12xx.Lib.Arr
import La12xx.Lib.Ber
import La12xx.Lib.ByteMem
import La12xx.Lib.CInt
import La12xx.Lib.CStr
import La12xx.Lib.Dialogue
import La12xx.Lib.Endian
import La12xx.Lib.Gf256
import La12xx.Lib.History
import La12xx.Lib.LazyStack
import La12xx.Lib.Ledger
import La12xx.Lib.Loop
import La12xx.Lib.Machine
import La12xx.Lib.Straight
import La12xx.Lib.Tiling
import La12xx.Lib.Tlv
import La12xx.Lib.WaitQueue
import La12xx.Lib.Watch
import La12xx.Lib.While
import La12xx.Log.Delivery
import La12xx.Mpic.Timestamp
import La12xx.Notify.Descriptors
import La12xx.Notify.Pairing
import La12xx.Pci.Lifecycle
import La12xx.Pci.ModInit
import La12xx.Pci.ModemIds
import La12xx.Pci.Resources
import La12xx.Rfic.Registers
import La12xx.Rfic.Sequences
import La12xx.Rfic.SwCmd
import La12xx.Sim.Ioctl
import La12xx.Sim.Power
import La12xx.Sim.Transfer
import La12xx.Sim.XferBounds
import La12xx.Stats.Device
import La12xx.Tvd.Accounting
import La12xx.Tvd.Requests
import La12xx.Tvd.Waiting
import La12xx.Usim.Acl
import La12xx.Usim.Aka
import La12xx.Usim.AuthKeys
import La12xx.Usim.BerLength
import La12xx.Usim.Bounds
import La12xx.Usim.CallerBuffers
import La12xx.Usim.Conformance
import La12xx.Usim.Decoders
import La12xx.Usim.Delivery
import La12xx.Usim.Directory
import La12xx.Usim.EfDir
import La12xx.Usim.EfRead
import La12xx.Usim.Fcp
import La12xx.Usim.FcpBounds
import La12xx.Usim.Files
import La12xx.Usim.Fplmn
import La12xx.Usim.Iccid
import La12xx.Usim.NasConfig
import La12xx.Usim.OnChip
import La12xx.Usim.PlmnLists
import La12xx.Usim.Rijndael
import La12xx.Usim.SecCtx
import La12xx.Usim.SuciCalcInfo
import La12xx.Usim.SuciLists
import La12xx.Usim.WriteSuccess
import La12xx.Vspa.Bounds
import La12xx.Vspa.Chunks
import La12xx.Vspa.Honest
import La12xx.Vspa.Image
import La12xx.Vspa.Lifecycle
import La12xx.Vspa.Load
import La12xx.Vspa.Memspaces
import La12xx.Vspa.Overlays
import La12xx.Vspa.Probe
import La12xx.Vspa.Records
import La12xx.Vspa.Staging
import La12xx.Wdog.Delivery
import La12xx.Wdog.Probe
import La12xx.Yucca.Command
import La12xx.Yucca.MemFiles
import La12xx.Yucca.StartUp
