import FlowKernel.QueueLifetime
import FlowKernel.LatestOnly
import FlowKernel.RegistrationRouting
import FlowKernel.Wakeup
import FlowKernel.Isolation
import FlowKernel.ResetRace
import FlowKernel.Accounting
import FlowKernel.SlotRegister
import FlowKernel.CacheConservation
import FlowKernel.Stopping
import FlowKernel.CommandOrder
import FlowKernel.BackgroundLoad
import FlowKernel.Restart
import FlowKernel.Teardown
import FlowKernel.Rust.CacheMirror
import FlowKernel.Rust.CallbackOrder
import FlowKernel.Rust.QueueObservers
import FlowKernel.Rust.Accounting
import FlowKernel.Rust.FailedStart
import FlowKernel.Sessions
import FlowKernel.SessionKeys
import FlowKernel.LatencyStats
import FlowKernel.PhantomDrops
import FlowKernel.Configuration
import FlowKernel.RoutingKeys
import FlowKernel.CapacityChecks
import FlowKernel.HandlerStatuses
import FlowKernel.ProcessExit
import FlowKernel.CycleReport
import FlowKernel.Rust.Response
import FlowKernel.QueueProgress
import FlowKernel.CycleService
import FlowKernel.Foundation.Simulation
import FlowKernel.RingChannels
import FlowKernel.RingWakeup
