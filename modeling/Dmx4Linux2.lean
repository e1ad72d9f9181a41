import Dmx4Linux2.Common.Around
import Dmx4Linux2.Common.Bisection
import Dmx4Linux2.Common.Carray
import Dmx4Linux2.Common.Circular
import Dmx4Linux2.Common.Field
import Dmx4Linux2.Common.Holdings
import Dmx4Linux2.Common.Kfifo
import Dmx4Linux2.Common.Linked
import Dmx4Linux2.Common.Mask
import Dmx4Linux2.Common.Memory
import Dmx4Linux2.Common.Queries
import Dmx4Linux2.Common.Ring
import Dmx4Linux2.Common.Run
import Dmx4Linux2.Common.Script
import Dmx4Linux2.Common.Serial
import Dmx4Linux2.Common.Streak
import Dmx4Linux2.Common.Trace
import Dmx4Linux2.Core.Model.Framequeue
import Dmx4Linux2.Core.Model.Pointers
import Dmx4Linux2.Core.Pointers
import Dmx4Linux2.Core.Reads
import Dmx4Linux2.Cuse.Answers
import Dmx4Linux2.Cuse.Arrival
import Dmx4Linux2.Cuse.CardInfo
import Dmx4Linux2.Cuse.Delivery
import Dmx4Linux2.Cuse.Fdwatchers
import Dmx4Linux2.Cuse.Filter
import Dmx4Linux2.Cuse.History
import Dmx4Linux2.Cuse.Isolation
import Dmx4Linux2.Cuse.Loop
import Dmx4Linux2.Cuse.Model.CardInfo
import Dmx4Linux2.Cuse.Model.Daemon
import Dmx4Linux2.Cuse.Model.Fdwatchers
import Dmx4Linux2.Cuse.Model.PortInfo
import Dmx4Linux2.Cuse.Pollhandles
import Dmx4Linux2.Cuse.Pool
import Dmx4Linux2.Cuse.PortInfo
import Dmx4Linux2.Dmxrtuart.Agreement
import Dmx4Linux2.Dmxrtuart.Alignment
import Dmx4Linux2.Dmxrtuart.Discovery
import Dmx4Linux2.Dmxrtuart.Forward
import Dmx4Linux2.Dmxrtuart.Idle
import Dmx4Linux2.Dmxrtuart.Lock
import Dmx4Linux2.Dmxrtuart.Loss
import Dmx4Linux2.Dmxrtuart.Model.Buffer
import Dmx4Linux2.Dmxrtuart.Model.Forward
import Dmx4Linux2.Dmxrtuart.Model.Pc16c550
import Dmx4Linux2.Dmxrtuart.Model.Pl011
import Dmx4Linux2.Dmxrtuart.Model.Port
import Dmx4Linux2.Dmxrtuart.Ownership
import Dmx4Linux2.Dmxrtuart.Reception
import Dmx4Linux2.Dmxrtuart.Settings
import Dmx4Linux2.Dmxrtuart.Transmission
import Dmx4Linux2.Dmxrtuart.Transmitter
import Dmx4Linux2.Dmxrtuart.Triggers
import Dmx4Linux2.Hwmodel.DmxLine
import Dmx4Linux2.Hwmodel.Interrupt
import Dmx4Linux2.Hwmodel.Model.DmxDevice
import Dmx4Linux2.Hwmodel.Model.Toplevel
import Dmx4Linux2.Hwmodel.Protocol
import Dmx4Linux2.Hwmodel.Wishbone
import Dmx4Linux2.Kernel.Lookup
import Dmx4Linux2.Kernel.Loopback
import Dmx4Linux2.Kernel.Model.Core
import Dmx4Linux2.Kernel.Model.Ports
import Dmx4Linux2.Kernel.Model.Readers
import Dmx4Linux2.Kernel.Model.Registry
import Dmx4Linux2.Kernel.Pool
import Dmx4Linux2.Kernel.Ports
import Dmx4Linux2.Kernel.Readers
import Dmx4Linux2.Kernel.Registry
import Dmx4Linux2.Kernel.Write
import Dmx4Linux2.Librdm.Bounds
import Dmx4Linux2.Librdm.Commands
import Dmx4Linux2.Librdm.Discovery
import Dmx4Linux2.Librdm.Matching
import Dmx4Linux2.Librdm.Model.Interface
import Dmx4Linux2.Librdm.Model.Shell
import Dmx4Linux2.Librdm.Muting
import Dmx4Linux2.Librdm.Parameters
import Dmx4Linux2.Librdm.Passes
import Dmx4Linux2.Librdm.Replies
import Dmx4Linux2.Librdm.Session
import Dmx4Linux2.Librdm.Shell
import Dmx4Linux2.Librdm.Truncated
import Dmx4Linux2.Librdm.Uids
import Dmx4Linux2.Llgip.Learning
import Dmx4Linux2.Llgip.Model.Port
import Dmx4Linux2.Llgip.Receiver
import Dmx4Linux2.Llgip.RoundTrip
import Dmx4Linux2.Rtuart.Chunking
import Dmx4Linux2.Rtuart.Codec
import Dmx4Linux2.Rtuart.DiscoveryBound
import Dmx4Linux2.Rtuart.DiscoveryReply
import Dmx4Linux2.Rtuart.DiscoveryResult
import Dmx4Linux2.Rtuart.Ledger
import Dmx4Linux2.Rtuart.Lock
import Dmx4Linux2.Rtuart.Recycled
import Dmx4Linux2.Rtuart.Replies
import Dmx4Linux2.Rtuart.Requests
import Dmx4Linux2.Rtuart.Sizes
import Dmx4Linux2.Rtuart.Transmit
import Dmx4Linux2.RtuartDev.Data
import Dmx4Linux2.RtuartDev.Events
import Dmx4Linux2.RtuartDev.Model.Device
import Dmx4Linux2.Suart.Acquisition
import Dmx4Linux2.Suart.Alignment
import Dmx4Linux2.Suart.Baudrate
import Dmx4Linux2.Suart.Convention
import Dmx4Linux2.Suart.Encoding
import Dmx4Linux2.Suart.Framing
import Dmx4Linux2.Suart.Lines
import Dmx4Linux2.Suart.Model.Card
import Dmx4Linux2.Suart.Model.Event
import Dmx4Linux2.Suart.Model.Handler
import Dmx4Linux2.Suart.Model.Rxbuffer
import Dmx4Linux2.Suart.Order
import Dmx4Linux2.Suart.Rxbuffer
import Dmx4Linux2.Suart.Sending
import Dmx4Linux2.Suart.Splitting
import Dmx4Linux2.Tasklet.Model.Kernel
import Dmx4Linux2.Tasklet.Schedule
import Dmx4Linux2.Uart.Baudrate
import Dmx4Linux2.Uart.Divisor
import Dmx4Linux2.Uart.Handler
import Dmx4Linux2.Uart.Model.Bus
import Dmx4Linux2.Uart.Model.Handler
import Dmx4Linux2.Uart.Model.Notification
import Dmx4Linux2.Uart.Model.Pl011
import Dmx4Linux2.Uart.Notification
import Dmx4Linux2.Uart.Receiving
import Dmx4Linux2.Uart.RxFifo
import Dmx4Linux2.Waitqueue.Model.Timespec
import Dmx4Linux2.Waitqueue.Timespec
