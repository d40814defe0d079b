import Abox.Lib.Runs
import Abox.Lib.Segments
import Abox.Lib.Loops
import Abox.Basic
import Abox.Radio.Pool
import Abox.Radio.Cbox
import Abox.Radio.Records
import Abox.Radio.Calls
import Abox.Radio.Ledger
import Abox.Radio.Saved
import Abox.Lib.Nor
import Abox.Flash.Control
import Abox.Flash.Secret
import Abox.Lib.Layout
import Abox.Config.ServerInfo
import Abox.Config.Rotation
import Abox.Config.Independence
import Abox.Lib.PowerCut
import Abox.Flash.Crc
import Abox.Boot.Main
import Abox.Boot.Recovery
import Abox.Frame.Crc
import Abox.Update.Rupdata
import Abox.Update.Staging
import Abox.Server.Tcp
import Abox.Server.Scan
import Abox.Server.Chunking
import Abox.Server.Resync
import Abox.Radio.Freq
import Abox.Radio.Check
import Abox.Radio.Poll
import Abox.Radio.Registry
import Abox.Radio.Disconnect
import Abox.Update.Bounds
import Abox.Server.Send
import Abox.Config.ServerList
import Abox.Dictionary.Info
import Abox.Dictionary.Entries
import Abox.Dictionary.Command
import Abox.Dictionary.Bounds
import Abox.Dictionary.Reply
import Abox.Server.Isolation
import Abox.Kernel.Ipc
import Abox.Server.Link
import Abox.Server.Clients
import Abox.Flash.Interrupted
import Abox.Radio.Queues
import Abox.Radio.Fifo
import Abox.Update.Mode
import Abox.Update.Progress
import Abox.Update.Replies
import Abox.Radio.Dequeue
import Abox.Boot.Status
import Abox.Boot.Retry
import Abox.Boot.Capacity
import Abox.Kernel.VarMq
import Abox.Radio.Sizes
import Abox.Server.Gateway
import Abox.Config.NetFile
import Abox.Ymodem.Receive
import Abox.Ymodem.Transfer
import Abox.Ymodem.Tofile
import Abox.Ymodem.Staging
import Abox.Ymodem.NetConfig
import Abox.Radio.Fragments
import Abox.Radio.Frames
import Abox.Radio.Reassembly
import Abox.Radio.Removal
import Abox.Radio.Assess
import Abox.Radio.Window
import Abox.Dictionary.Reboot
import Abox.Dictionary.Rejected
import Abox.Lib.Crc
import Abox.Frame.Bitwise
import Abox.Boot.Image
import Abox.Server.Report
import Abox.Server.Teardown
import Abox.Server.Idle
import Abox.Update.Usb
import Abox.Config.NetValues
import Abox.Config.NetBounds
import Abox.Ymodem.PacketSize
import Abox.Lib.Blocks
import Abox.Log.Buffers
import Abox.Config.Ipaddr
import Abox.Lib.Numerals
import Abox.Log.Itoa
import Abox.Lib.Ring
import Abox.Log.Sheet
import Abox.Log.Arp
import Abox.Log.Lines
import Abox.Log.Dump
import Abox.Lib.Stall
import Abox.Device.Flash
import Abox.Device.Rupdata
import Abox.Device.Kept
import Abox.Device.Atomic
import Abox.Device.Window
import Abox.Device.Retry
import Abox.Device.Files
import Abox.Device.Life
import Abox.Server.Downlink
import Abox.Radio.Uplink
import Abox.Telnet.RingBuffer
import Abox.Telnet.Session
import Abox.Telnet.Delivery
import Abox.Device.Watchdog
