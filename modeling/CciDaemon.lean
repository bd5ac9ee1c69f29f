import CciDaemon.Foundations.Counting
import CciDaemon.Kernel.ContextLiveness
import CciDaemon.Kernel.Singleton
import CciDaemon.Kernel.InstanceRace
import CciDaemon.Kernel.InstanceCalls
import CciDaemon.Kernel.Discipline
import CciDaemon.Kernel.UnloadLocality
import CciDaemon.Kernel.Loading
import CciDaemon.Kernel.Handles
import CciDaemon.Session.Authentication
import CciDaemon.Session.Framing
import CciDaemon.Session.Correlation
import CciDaemon.Session.Residue
import CciDaemon.Session.Answers
import CciDaemon.Session.Terminators
import CciDaemon.Session.Console
import CciDaemon.Session.Closing
import CciDaemon.Session.BufferBound
import CciDaemon.Session.Trim
import CciDaemon.Pool.Shutdown
import CciDaemon.Pool.Delivery
import CciDaemon.Pool.Termination
import CciDaemon.PidFile.SingleInstance
import CciDaemon.PidFile.Agreement
import CciDaemon.Dispatch.Lifecycle
import CciDaemon.Dispatch.Handoff
import CciDaemon.Dispatch.IdleLogout
import CciDaemon.Dispatch.Interleaving
import CciDaemon.Dispatch.PoolRefinement
import CciDaemon.Dispatch.Timer
import CciDaemon.Daemon.ServiceLoop
import CciDaemon.Daemon.Daemonize
import CciDaemon.Daemon.MetaDaemon
import CciDaemon.Daemon.Heartbeat
import CciDaemon.Daemon.Halting
import CciDaemon.Daemon.ConfigFile
import CciDaemon.Daemon.StackTrace
import CciDaemon.Daemon.Backtrace
import CciDaemon.Daemon.Bootstrap
import CciDaemon.Daemon.FacadeLife
import CciDaemon.Daemon.MapKernel
import CciDaemon.Daemon.LogHandle
import CciDaemon.Tornado.EntryPoint
import CciDaemon.Ccifs.Notify
