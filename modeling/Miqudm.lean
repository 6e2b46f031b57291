import Miqudm.Core.Prog
import Miqudm.Core.Ledger
import Miqudm.Core.Sections
import Miqudm.Core.Stream
import Miqudm.Core.Tenancy
import Miqudm.Core.Mirror
import Miqudm.Core.Alike
import Miqudm.Common.Text
import Miqudm.Common.UserScanner
import Miqudm.Common.SessionScanner
import Miqudm.Common.Config
import Miqudm.Common.ConfigText
import Miqudm.Common.ConfigFile
import Miqudm.Common.ConfigSave
import Miqudm.Common.DesktopEntry
import Miqudm.Common.Respacing
import Miqudm.Common.SessionScan
import Miqudm.Common.UserScan
import Miqudm.Common.Ipc
import Miqudm.Common.JsonShape
import Miqudm.Common.RoundTrip
import Miqudm.Common.Framing
import Miqudm.Daemon.PamAuth
import Miqudm.Daemon.PamSteps
import Miqudm.Daemon.PamLedger
import Miqudm.Daemon.PamObjects
import Miqudm.Daemon.PamConversation
import Miqudm.Daemon.World
import Miqudm.Daemon.Session
import Miqudm.Daemon.Daemon
import Miqudm.Daemon.Frames
import Miqudm.Daemon.Login
import Miqudm.Daemon.Moves
import Miqudm.Daemon.Moments
import Miqudm.Daemon.Connection
import Miqudm.Daemon.DaemonLedger
import Miqudm.Daemon.Confinement
import Miqudm.Daemon.Identity
import Miqudm.Daemon.GreeterPrivileges
import Miqudm.Daemon.Survival
import Miqudm.Daemon.MalformedInput
import Miqudm.Daemon.LoginGating
import Miqudm.Daemon.FailedLogin
import Miqudm.Daemon.LastUser
import Miqudm.Daemon.Ownership
import Miqudm.Daemon.Rendezvous
import Miqudm.Daemon.Supervision
import Miqudm.Daemon.Intent
import Miqudm.Daemon.StopRequest
import Miqudm.Daemon.LoginScreen
import Miqudm.Daemon.Reaping
import Miqudm.Daemon.Logins
import Miqudm.Daemon.Environment
import Miqudm.Daemon.DesktopNames
import Miqudm.Daemon.Residue
import Miqudm.Greeter.IpcClient
import Miqudm.Greeter.GreeterApp
import Miqudm.Greeter.LoginForm
import Miqudm.Greeter.Replies
import Miqudm.Greeter.Agreement
import Miqudm.Daemon.SessionChoice
import Miqudm.Daemon.Delivery
import Miqudm.Daemon.CommandLine
import Miqudm.Daemon.ConfigInForce
import Miqudm.Daemon.Domestic
import Miqudm.Daemon.Seat
import Miqudm.Daemon.Refusals
import Miqudm.Daemon.Service
import Miqudm.Greeter.RemoteCalls
import Miqudm.Daemon.Logind
import Miqudm.Daemon.Shutdown
import Miqudm.Greeter.Process
import Miqudm.Greeter.SignIn
import Miqudm.Daemon.Listings
import Miqudm.Daemon.Endpoint
import Miqudm.Greeter.StatusLine
import Miqudm.Daemon.Secrecy
