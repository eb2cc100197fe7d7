import CppFrame.UnorderedMap
import CppFrame.RangeFor
import CppFrame.Run
import CppFrame.BigEndian
import CppFrame.PieceReader
import CppFrame.Throwing
import CppFrame.Json
import CppFrame.LeftmostSplit
import CppFrame.Helper
import CppFrame.Explode
import CppFrame.File.Logger
import CppFrame.File.Failures
import CppFrame.File.Config
import CppFrame.Signal.Manager
import CppFrame.Concurrency.Locking
import CppFrame.Concurrency.TaskQueue
import CppFrame.Concurrency.ThreadPool
import CppFrame.Concurrency.Wakeups
import CppFrame.Concurrency.Shutdown
import CppFrame.Db.MariaDB
import CppFrame.Db.Cleanup
import CppFrame.Db.Connections
import CppFrame.Db.Param
import CppFrame.Db.Core
import CppFrame.Db.Auth
import CppFrame.Db.Authentication
import CppFrame.Db.Accounts
import CppFrame.Db.Credentials
import CppFrame.Server.Handler
import CppFrame.Server.Spec
import CppFrame.Server.Sends
import CppFrame.Server.Contract
import CppFrame.Server.Authorisation
import CppFrame.Server.Kick
import CppFrame.Server.Presence
import CppFrame.Server.Pruning
import CppFrame.Server.Clock
import CppFrame.Server.Channels
import CppFrame.Server.EmptyChannels
import CppFrame.Server.Pooled
import CppFrame.Server.PooledSessions
import CppFrame.Server.Leaks
import CppFrame.Server.OneWorker
import CppFrame.Server.Workers
import CppFrame.Server.Admins
import CppFrame.Server.Waiting
import CppFrame.Server.Locks
import CppFrame.Server.Unlocked
import CppFrame.Server.Others
import CppFrame.Server.FanOut
import CppFrame.Server.Departures
import CppFrame.Server.Mirror
import CppFrame.Server.JsonText
import CppFrame.SimpleWeb.Frame
import CppFrame.SimpleWeb.Server
import CppFrame.SimpleWeb.Client
import CppFrame.SimpleWeb.Sizes
import CppFrame.SimpleWeb.Delivery
import CppFrame.SimpleWeb.ScopeRunner
import CppFrame.SimpleWeb.SendQueue
import CppFrame.SimpleWeb.SendClose
import CppFrame.SimpleWeb.EndToEnd
import CppFrame.SimpleWeb.Http
import CppFrame.SimpleWeb.Query
import CppFrame.SimpleWeb.Handshake
import CppFrame.SimpleWeb.Endpoint
import CppFrame.SimpleWeb.Serving
import CppFrame.SimpleWeb.Attempt
import CppFrame.SimpleWeb.System
import CppFrame.SimpleWeb.Relay
import CppFrame.SimpleWeb.Url
