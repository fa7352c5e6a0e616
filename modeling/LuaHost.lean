import LuaHost.Main
import LuaHost.Proofs.Core.Dialogue
import LuaHost.Proofs.Registry
import LuaHost.Proofs.Engine.Kept
import LuaHost.Proofs.Engine.Settled
import LuaHost.Proofs.Engine.Load
import LuaHost.Proofs.Engine.Moves
import LuaHost.Proofs.Engine.Reachable
import LuaHost.Proofs.Files.Walk
import LuaHost.Proofs.Files.Operations
import LuaHost.Proofs.Files.ScriptDirs
import LuaHost.Proofs.Engine.Install
import LuaHost.Proofs.Engine.Delivery
import LuaHost.Proofs.Engine.Calls
import LuaHost.Proofs.Engine.Links
import LuaHost.Proofs.Engine.Removal
import LuaHost.Proofs.Core.Proceeding
import LuaHost.Proofs.Core.Lines
import LuaHost.Proofs.Core.Sessions
import LuaHost.Proofs.Engine.Evaluations
import LuaHost.Proofs.Engine.Lines
import LuaHost.Proofs.Engine.Requests
import LuaHost.Proofs.Engine.WakeUps
import LuaHost.Proofs.Engine.Signals
import LuaHost.Proofs.Core.Silence
import LuaHost.Proofs.Engine.Ambient
import LuaHost.Proofs.Core.Input
import LuaHost.Proofs.Engine.Input
import LuaHost.Proofs.Engine.Teardown
import LuaHost.Proofs.Engine.Unload
import LuaHost.Proofs.Engine.History
import LuaHost.Proofs.Engine.Closing
import LuaHost.Proofs.Engine.Isolation
import LuaHost.Proofs.Core.Quiet
import LuaHost.Proofs.Engine.Mirror
import LuaHost.Proofs.Engine.Quiet
import LuaHost.Proofs.Engine.Reload
import LuaHost.Proofs.Engine.Emptying
import LuaHost.Proofs.Engine.SameFile
import LuaHost.Proofs.Files.Clearing
import LuaHost.Proofs.Engine.Clearing
import LuaHost.Proofs.Encoding
import LuaHost.Proofs.Core.Writing
import LuaHost.Proofs.Binary64
import LuaHost.Proofs.Engine.Results
import LuaHost.Proofs.Handle
import LuaHost.Proofs.HostTable
import LuaHost.Proofs.Exchange
import LuaHost.Proofs.Engine.RoundTrip
import LuaHost.Proofs.Request.Names
import LuaHost.Proofs.CommandLine
import LuaHost.Proofs.Options.Assignment
import LuaHost.Proofs.Console
import LuaHost.Proofs.Options.Quoting
import LuaHost.Proofs.Options.Refusals
import LuaHost.Proofs.Timer
import LuaHost.Proofs.Files.Listing
import LuaHost.Proofs.Engine.Startup
import LuaHost.Proofs.Files.Autolinks
import LuaHost.Proofs.Number.Rounding
import LuaHost.Proofs.Number.Decimal
import LuaHost.Proofs.Number.Shortest
import LuaHost.Proofs.Number.Written
import LuaHost.Proofs.Core.Numbers
