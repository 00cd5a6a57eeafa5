import PrussBindings.Client.Discipline
import PrussBindings.Client.Load
import PrussBindings.Client.Shutdown
import PrussBindings.Client.Socket
import PrussBindings.Daemon.ConfigFile
import PrussBindings.Daemon.Confinement
import PrussBindings.Daemon.Images
import PrussBindings.Daemon.LoadRefused
import PrussBindings.Daemon.Memory
import PrussBindings.Daemon.Reply
import PrussBindings.Driver.Interleaving
import PrussBindings.Driver.MessageFifo
import PrussBindings.Driver.Probe
import PrussBindings.Driver.ReadBound
import PrussBindings.Driver.Readiness
import PrussBindings.Driver.SharedBuffer
import PrussBindings.Firmware.HandOver
import PrussBindings.Firmware.MultichannelLoop
import PrussBindings.Firmware.MultichannelWaveform
import PrussBindings.Firmware.PulseSupply
import PrussBindings.Firmware.Pwm
import PrussBindings.Firmware.SingleChannelWaveform
import PrussBindings.Lib.ByteMemory
import PrussBindings.Lib.Counter
import PrussBindings.Lib.Rely
import PrussBindings.Node.Encoding
import PrussBindings.Node.Overlap
import PrussBindings.Node.Sock
import PrussBindings.Rpmsg.Confinement
import PrussBindings.Rpmsg.Exchange
import PrussBindings.Rpmsg.Firmware
import PrussBindings.Rpmsg.Host
import PrussBindings.Rpmsg.Layout
import PrussBindings.Rpmsg.Queue
import PrussBindings.Rpmsg.Ram
import PrussBindings.Rpmsg.Service
import PrussBindings.Rpmsg.Storing
import PrussBindings.Rpmsg.Transport
import PrussBindings.Rpmsg.Unruly
import PrussBindings.Rpmsg.UsedIndex
import PrussBindings.System.Channel
import PrussBindings.System.Contention
import PrussBindings.System.CoreState
import PrussBindings.System.Generator
import PrussBindings.System.GetMsg
import PrussBindings.System.Motor
import PrussBindings.System.RawMessage
import PrussBindings.System.Replies
import PrussBindings.System.StringMessage
