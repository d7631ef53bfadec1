import DoipEndpoint.Runs
import DoipEndpoint.Program
import DoipEndpoint.Threads
import DoipEndpoint.Critical
import DoipEndpoint.InFlight
import DoipEndpoint.Link
import DoipEndpoint.Network
import DoipEndpoint.Span
import DoipEndpoint.Inbound
import DoipEndpoint.NestedMap
import DoipEndpoint.OneKey
import DoipEndpoint.SaturatingCounter
import DoipEndpoint.Asio.Basic
import DoipEndpoint.Asio.Write
import DoipEndpoint.Asio.PacketInfo
import DoipEndpoint.Asio.ReceiveFrom
import DoipEndpoint.Asio.Composed
import DoipEndpoint.Buffer
import DoipEndpoint.Reading
import DoipEndpoint.Region
import DoipEndpoint.Client.State
import DoipEndpoint.Client.Functions
import DoipEndpoint.Client.Run
import DoipEndpoint.Client.Effects
import DoipEndpoint.Client.Connected
import DoipEndpoint.Client.Connecting
import DoipEndpoint.Client.Stopped
import DoipEndpoint.Client.Ownership
import DoipEndpoint.Client.Stale
import DoipEndpoint.Client.Current
import DoipEndpoint.Client.Attached
import DoipEndpoint.Client.SingleReceive
import DoipEndpoint.Client.Remote
import DoipEndpoint.Client.Reading
import DoipEndpoint.Client.Sending
import DoipEndpoint.Client.LocalPort
import DoipEndpoint.Client.Region
import DoipEndpoint.Client.SentTimer
import DoipEndpoint.Client.Rest
import DoipEndpoint.Client.Listening
import DoipEndpoint.Client.Locked
import DoipEndpoint.Server.State
import DoipEndpoint.Server.Functions
import DoipEndpoint.Server.Run
import DoipEndpoint.Server.Effects
import DoipEndpoint.Server.Stopped
import DoipEndpoint.Server.Reading
import DoipEndpoint.Server.Quiet
import DoipEndpoint.Server.Table
import DoipEndpoint.Server.Peers
import DoipEndpoint.Server.AcceptLoop
import DoipEndpoint.Server.Sending
import DoipEndpoint.Server.Rest
import DoipEndpoint.Server.Region
import DoipEndpoint.Server.Locked
import DoipEndpoint.Server.Deadlock
import DoipEndpoint.TcpReading
import DoipEndpoint.TcpSend
import DoipEndpoint.TcpLent
import DoipEndpoint.TcpChannel
import DoipEndpoint.TcpWrite
import DoipEndpoint.UdpServer.Functions
import DoipEndpoint.UdpServer.Delivery
import DoipEndpoint.UdpServer.Reactive
import DoipEndpoint.UdpServer.Locked
import DoipEndpoint.UdpSend
import DoipEndpoint.UdpChannel
import DoipEndpoint.UseCount
import DoipEndpoint.ConcurrentUse
import DoipEndpoint.Manager.Functions
import DoipEndpoint.Manager.Run
import DoipEndpoint.Manager.Registry
import DoipEndpoint.Manager.InUse
import DoipEndpoint.Manager.FailedCreate
import DoipEndpoint.Manager.Users
import DoipEndpoint.Manager.Concurrent
import DoipEndpoint.Host
import DoipEndpoint.Process
import DoipEndpoint.Custody
import DoipEndpoint.Client.Binding
import DoipEndpoint.UdpServer.Printing
import DoipEndpoint.Server.Accepting
import DoipEndpoint.Server.Storing
