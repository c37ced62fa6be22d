import Asgiref.Lib.Machine
import Asgiref.Local
import Asgiref.Bridge.Program
import Asgiref.Bridge.World
import Asgiref.Crossing
import Asgiref.Bridge.Agreement
import Asgiref.Bridge.Readiness
import Asgiref.Bridge.Transparency
import Asgiref.Bridge.Rules
import Asgiref.Bridge.Inheritance
import Asgiref.Bridge.DeadlockGuard
import Asgiref.Executor.Invariant
import Asgiref.Executor.Delivery
import Asgiref.Handshake.Machine
import Asgiref.Handshake.Release
import Asgiref.ThreadCritical
import Asgiref.Handshake.Capture
import Asgiref.Runtime.State
import Asgiref.Runtime.Tasks
import Asgiref.Runtime.Machine
import Asgiref.Runtime.Frames
import Asgiref.Runtime.Slots
import Asgiref.Runtime.ParentLoop
import Asgiref.Runtime.Fallback
import Asgiref.Runtime.Currents
import Asgiref.Server.Deletion
import Asgiref.Server.Capacity
import Asgiref.Server.Registration
import Asgiref.Wsgi.Response
import Asgiref.Wsgi.StartResponse
import Asgiref.Wsgi.Description
import Asgiref.Wsgi.Grammar
import Asgiref.Wsgi.Clamping
import Asgiref.Process.Machine
import Asgiref.Process.Privacy
import Asgiref.Bridge.CustomContext
import Asgiref.Runtime.Lists
import Asgiref.Runtime.OwnLoop
import Asgiref.Runtime.NewLoops
import Asgiref.Runtime.LoopLife
import Asgiref.SingleThread.Deadlock
import Asgiref.Runtime.Affinity
import Asgiref.Runtime.Cancellation
import Asgiref.Executor.Submission
import Asgiref.ContextManagers
import Asgiref.CopyOnWrite.Refinement
import Asgiref.CriticalNamespace
import Asgiref.Server.Checker
import Asgiref.Server.Recency
import Asgiref.Wsgi.Environ
import Asgiref.Wsgi.Headers
import Asgiref.Wsgi.BadRequest
import Asgiref.Wsgi.Mount
import Asgiref.Calls.Order
import Asgiref.Calls.Bookkeeping
import Asgiref.Identity.PlainCopy
import Asgiref.Identity.Values
import Asgiref.Timeout.Runs
import Asgiref.Testing.Messages
import Asgiref.Server.Messages
import Asgiref.Wsgi.Request
import Asgiref.Wsgi.Merging
import Asgiref.SensitiveContext.Exit
import Asgiref.ExcInfo.Transparency
