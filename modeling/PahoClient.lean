import PahoClient.Transition.Run
import PahoClient.Client.Data
import PahoClient.Sync.RWLock
import PahoClient.Client.State
import PahoClient.Client.Step
import PahoClient.Client.Invariant
import PahoClient.Client.Preservation
import PahoClient.Client.Effects
import PahoClient.Properties.Outcome
import PahoClient.Properties.Lifetime
import PahoClient.Properties.Serialisation
import PahoClient.Client.Registration
import PahoClient.Properties.Rollback
import PahoClient.Client.Sequential
import PahoClient.Client.Messages
import PahoClient.Properties.Independence
import PahoClient.Properties.Window
import PahoClient.Properties.Ordering
import PahoClient.Properties.Silence
import PahoClient.Client.Broker
import PahoClient.Properties.Orphans
import PahoClient.Properties.Reconnection
import PahoClient.Client.Alone
import PahoClient.Client.Locks
import PahoClient.Properties.Progress
import PahoClient.Client.Handlers
import PahoClient.Properties.Contexts
import PahoClient.Properties.Installation
import PahoClient.Properties.Routing
import PahoClient.Properties.Release
import PahoClient.Properties.Setup
import PahoClient.Control.Loop
import PahoClient.Client.Vectors
import PahoClient.Client.Exceptions
import PahoClient.Properties.Bounds
import PahoClient.Properties.Atomicity
import PahoClient.Dll.Wrapper
import PahoClient.Properties.NullPointers
import PahoClient.Transition.Simulation
import PahoClient.Properties.Races
import PahoClient.Client.Turns
import PahoClient.Properties.Granularity
import PahoClient.Transition.Potential
import PahoClient.Client.Budget
import PahoClient.Properties.Termination
import PahoClient.Transition.Product
import PahoClient.Properties.Processes
import PahoClient.Dll.Loading
import PahoClient.Properties.Loading
import PahoClient.Client.Output
import PahoClient.Properties.Diagnostics
import PahoClient.Properties.Provenance
import PahoClient.Application.MqttTest
import PahoClient.Application.Thread
import PahoClient.Application.Registrations
import PahoClient.Application.Output
import PahoClient.Properties.Rest
import PahoClient.Application.Ending
import PahoClient.Properties.Linearisation
import PahoClient.Properties.Reentrancy
import PahoClient.Dll.Client
import PahoClient.Properties.Degradation
import PahoClient.Application.Session
