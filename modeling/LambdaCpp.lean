import LambdaCpp.Base.Bytes
import LambdaCpp.Base.Utf8
import LambdaCpp.Base.Json
import LambdaCpp.Base.System
import LambdaCpp.Base.Streak
import LambdaCpp.Base.Ledger
import LambdaCpp.Base.Loops
import LambdaCpp.Base.Simulation
import LambdaCpp.Target
import LambdaCpp.Outcome
import LambdaCpp.Outcome.Storage
import LambdaCpp.Outcome.Lifetimes
import LambdaCpp.Logging
import LambdaCpp.Http.Response
import LambdaCpp.Runtime.Callbacks
import LambdaCpp.Runtime.Upload
import LambdaCpp.Runtime.Curl
import LambdaCpp.Runtime.InvocationRequest
import LambdaCpp.Runtime.GetNext
import LambdaCpp.Runtime.Deadline
import LambdaCpp.Runtime.Wire
import LambdaCpp.Runtime.InvocationResponse
import LambdaCpp.Runtime.ErrorPayload
import LambdaCpp.Runtime.Post
import LambdaCpp.Runtime.Framing
import LambdaCpp.Runtime.Handle
import LambdaCpp.Runtime.Loop
import LambdaCpp.Runtime.Threads
import LambdaCpp.Runtime.RunHandler
import LambdaCpp.Runtime.Builds
import LambdaCpp.Packaging.Shell
import LambdaCpp.Packaging.FileSystem
import LambdaCpp.Packaging.Packager
import LambdaCpp.Packaging.Loader
import LambdaCpp.Packaging.Listing
import LambdaCpp.Packaging.Dependencies
import LambdaCpp.Packaging.DefaultLibc
import LambdaCpp.Runtime.ThreadLocal
import LambdaCpp.Runtime.EndToEnd
import LambdaCpp.Packaging.Sessions
import LambdaCpp.Packaging.Archives
import LambdaCpp.Runtime.Service
import LambdaCpp.Runtime.Logs
import LambdaCpp.Runtime.Privacy
