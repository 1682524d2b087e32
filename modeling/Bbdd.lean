import Bbdd.Daemon.Promised
import Bbdd.Daemon.Ownership
import Bbdd.Daemon.Abort
import Bbdd.Daemon.SourcePorts
import Bbdd.Daemon.Expected
import Bbdd.Daemon.Peer
import Bbdd.Jrpc.Dissect
import Bbdd.Daemon.Pacing
import Bbdd.Daemon.Rearm
import Bbdd.Daemon.Timing
import Bbdd.Daemon.Select
import Bbdd.Bfddp.Framing
import Bbdd.Daemon.Acknowledged
import Bbdd.EventLoop.Dispatched
import Bbdd.TimerService.Served
import Bbdd.Daemon.Drain
import Bbdd.Buffer.Fifo
import Bbdd.Daemon.Discriminators
import Bbdd.Daemon.Multipliers
import Bbdd.Daemon.ControlPlane
import Bbdd.Daemon.Received
import Bbdd.Bfddp.Echo
import Bbdd.Bridge
import Bbdd.Daemon.Agreement
import Bbdd.Frames.Arrival
import Bbdd.Monitor.Runs
import Bbdd.Client.Exchange
