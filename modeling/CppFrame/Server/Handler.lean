import CppFrame.File.Logger
import CppFrame.RangeFor

/-!
# The WebSocket endpoint handler

`WssEndpointHandler` of `lib/jahan/server/wss_endpoint_handler.cpp`. It keeps a registry `m_clients`
of the clients of every channel and reacts to the callbacks of the WebSocket server. Each of the
functions below is one function of that file, from the registry to the registry and the list of what
the function did to the outside (`Event`), in order.

A `std::string` is a `String` whose characters are its bytes. A loop over a map that the loop may
erase from is a `RangeFor.rangeFor`: the functions with such a loop take an `Iteration` and return
`none` where an iterator is incremented that no longer stands on a node.
-/

namespace CppFrame.Server

open RangeFor
open File (LogLevel)

/-! ## Data -/

/-- A connection of the WebSocket server, as far as the handler reads it. Two objects differ by
`id`. -/
structure Connection where
  id : Nat
  address : String
  port : UInt16
  queryString : String
  deriving DecidableEq

/-- `ip:port`, the key of a client in its channel. -/
def Connection.clientKey (con : Connection) : String :=
  con.address ++ ":" ++ toString con.port.toNat

/-- The alphanumeric characters of the query string, which name the channel. -/
def Connection.channel (con : Connection) : String :=
  String.ofList (con.queryString.toList.filter Char.isAlphanum)

/-- `jahan::type::SocketClient`; `connection` is a `weak_ptr`, empty until `onOpen` sets it. -/
structure SocketClient where
  connection : Option Connection
  connectionTstamp : Int
  authenticated : Bool
  name : String
  deriving DecidableEq

/-- The value-initialised client that `operator[]` makes. -/
instance : Inhabited SocketClient := ⟨⟨none, 0, false, ""⟩⟩

/-- The clients of one channel, by client key. -/
abbrev Channel := UMap String SocketClient

/-- `m_clients`: the channels by name. -/
abbrev Clients := UMap String Channel

/-- The members of the handler that stay as they are while callbacks run: whether a logger, an
authenticator and a thread pool are set, and how `time_t_to_string` writes a time. -/
structure WssEndpointHandler where
  logger : Bool
  authenticator : Bool
  tpool : Bool
  timeTToString : Int → String

/-- What the outside answers while one callback or task runs: which connections a `weak_ptr` can
still be locked to, what the authenticator says of a message, the time, and where new nodes go. -/
structure Env where
  alive : Connection → Bool
  authenticator : String → String
  now : Int
  clientNodes : UMap.Arrangement String SocketClient
  channelNodes : UMap.Arrangement String Channel

/-- What a handler function does to the outside. -/
inductive Event
  | send (con : Connection) (message : String)
  | sendClose (con : Connection) (status : Nat) (reason : String)
  | authenticator (message name : String)
  | logger (message : String) (level : LogLevel)
  deriving DecidableEq

/-- `weak_ptr::lock` on the connection of a client. -/
def SocketClient.lock (env : Env) (client : SocketClient) : Option Connection :=
  client.connection.filter env.alive

/-- `std::string::pop_back`. -/
def popBack (s : String) : String := String.ofList s.toList.dropLast

/-! ## The registry -/

/-- `m_clients[channel][client_key]`, both nodes made where there are none. -/
def Clients.client (env : Env) (channel clientKey : String) (m : Clients) : Clients :=
  (m.index env.channelNodes channel).modify channel (·.index env.clientNodes clientKey)

/-- The entry of a client, where there is one. -/
def Clients.entry (m : Clients) (channel clientKey : String) : Option SocketClient :=
  (m.lookup channel).bind (·.lookup clientKey)

/-- A write to fields of `m_clients[channel][client_key]`. -/
def Clients.modifyClient (channel clientKey : String) (f : SocketClient → SocketClient)
    (m : Clients) : Clients :=
  m.modify channel (·.modify clientKey f)

namespace WssEndpointHandler

variable (weh : WssEndpointHandler) (it : Iteration) (env : Env)

/-- A call of `m_logger`, made only where one is set. -/
def log (message : String) (level : LogLevel) : List Event :=
  if weh.logger then [.logger message level] else []

/-- `remove_client`: the client leaves its channel, and the channel goes with its last client. -/
def removeClient (channel clientKey why : String) (m : Clients) : Clients × List Event :=
  let m := (m.index env.channelNodes channel).modify channel (·.erase clientKey)
  (if (m.get channel).isEmpty then m.erase channel else m,
    weh.log (channel ++ " " ++ clientKey ++ ": Removing Connection " ++ why) .debug)

/-! ## Broadcasts -/

/-- Whether `broadcast` sends to a client: anyone but the sender, who must be authenticated where an
authenticator is set. -/
def receives (clientKey k : String) (client : SocketClient) : Bool :=
  k ≠ clientKey && (!weh.authenticator || client.authenticated)

/-- The body of the loop over the recipients. -/
def broadcastTo (message clientKey channel k : String) (client : SocketClient) (m : Clients) :
    Clients × List Event :=
  if weh.receives clientKey k client then
    match client.lock env with
    | some con =>
      (m, weh.log (channel ++ " " ++ k ++ ": Sending broadcast message") .debug ++
        [.send con message])
    | none =>
      let r := weh.removeClient env channel k "found inactive in broadcast." m
      (r.1, weh.log (channel ++ " " ++ k ++ ": Couldn't lock.") .debug ++ r.2)
  else (m, [])

/-- The body of the loop that drops empty channels. -/
def sweep (k : String) (_ : Channel) (m : Clients) : Clients × List Event :=
  (if (m.get k).isEmpty then m.erase k else m, [])

/-- `broadcast`: the message to every recipient of the channel, clients that are gone being removed,
then the empty channels of the whole registry dropped. -/
def broadcast (message clientKey channel : String) (m : Clients) : Option (Clients × List Event) :=
  let m := m.index env.channelNodes channel
  (rangeFor it (·.lookup channel) (weh.broadcastTo env message clientKey channel)
    (m.get channel).entries m).bind fun r =>
  (rangeFor it some sweep r.1.entries r.1).map fun r' => (r'.1, r.2 ++ r'.2)

/-! ## Presence -/

/-- `get_presence_json`. -/
def getPresenceJson (client : SocketClient) : String :=
  "\x7b" ++ "\"Name\":\"" ++ client.name ++ "\"" ++ "\x7d"

/-- One round of the inner loop of `send_channel_presence`: everyone authenticated but the receiver
is written under a running number. -/
def presenceEntry (clientKey : String) (acc : String × Nat) (n : Σ _ : String, SocketClient) :
    String × Nat :=
  if n.2.authenticated && n.1 ≠ clientKey then
    (acc.1 ++ ("\"" ++ toString acc.2 ++ "\":") ++ getPresenceJson n.2 ++ ",", acc.2 + 1)
  else acc

/-- The message for one receiver. -/
def presenceJson (clientKey : String) (clients : List (Σ _ : String, SocketClient)) : String :=
  popBack (clients.foldl (presenceEntry clientKey) ("OTHERS \x7b ", 0)).1 ++ "\x7d"

/-- The body of the outer loop of `send_channel_presence`. -/
def presenceTo (channel k : String) (client : SocketClient) (m : Clients) : Clients × List Event :=
  if client.authenticated then
    match client.lock env with
    | some con => (m, [.send con (presenceJson k (m.get channel).entries)])
    | none => weh.removeClient env channel k "found inactive in presence" m
  else (m, [])

/-- `send_channel_presence`: every authenticated client of the channel is told the others. -/
def sendChannelPresence (channel : String) (m : Clients) : Option (Clients × List Event) :=
  if channel ∈ m then
    rangeFor it (·.lookup channel) (weh.presenceTo env channel) (m.get channel).entries m
  else some (m, [])

/-! ## The dump of all clients -/

/-- One client in `get_all_clients_in_json`. -/
def clientJson (n : Σ _ : String, SocketClient) : String :=
  "\"" ++ n.1 ++ "\":\x7b" ++ ("\"Name\":\"" ++ n.2.name ++ "\",") ++
    ("\"Authenticated\":\"" ++ (if n.2.authenticated then "Yes" else "No") ++ "\",") ++
    ("\"Connection Timestamp\":\"" ++ weh.timeTToString n.2.connectionTstamp ++ "\"") ++ "\x7d,"

/-- One channel in `get_all_clients_in_json`. -/
def channelJson (n : Σ _ : String, Channel) : String :=
  popBack (n.2.entries.foldl (fun json c => json ++ weh.clientJson c)
    ("\"" ++ n.1 ++ "\":\x7b ")) ++ "\x7d,"

/-- `get_all_clients_in_json`. -/
def getAllClientsInJson (m : Clients) : String :=
  popBack (m.entries.foldl (fun json c => json ++ weh.channelJson c) "ALL    \x7b ") ++ "\x7d"

/-! ## The handlers -/

/-- The task of `on_message`. -/
def onMessage (con : Connection) (inMessage : String) (m : Clients) :
    Option (Clients × List Event) :=
  let clientKey := con.clientKey
  if inMessage.length > 1000000 then
    some (m, weh.log (clientKey ++ ": Message over threashold.") .info)
  else if con.channel.isEmpty then some (m, [])
  else
    let channel := con.channel
    let m := m.client env channel clientKey
    let thisClient := (m.get channel).get clientKey
    if weh.authenticator && !thisClient.authenticated then
      let name := env.authenticator inMessage
      if name.isEmpty then
        some (m.modify channel (·.erase clientKey),
          .authenticator inMessage name :: .sendClose con 3000 "Authentication Failed" ::
            weh.log (clientKey ++ ": Failed Authentication.") .debug)
      else
        let m := m.modifyClient channel clientKey fun c =>
          { c with authenticated := true, name := name }
        (weh.sendChannelPresence it env channel m).map fun r =>
          (r.1, .authenticator inMessage name :: .send con "ok" ::
            (weh.log (clientKey ++ ": Authenticated") .debug ++ r.2))
    else if thisClient.authenticated &&
        (thisClient.name = "Sean J" || thisClient.name = "Ash D" || thisClient.name = "Alex D") &&
        inMessage = "CSTATUS" then
      some (m, [.send con (weh.getAllClientsInJson m)])
    else weh.broadcast it env ("MESSAGE" ++ inMessage) clientKey channel m

/-- The task of `on_open`. -/
def onOpen (con : Connection) (m : Clients) : Clients × List Event :=
  if con.channel.isEmpty then
    (m, weh.log (con.clientKey ++ ": Empty Channel Name") .info ++
      [.sendClose con 1008 "Empty channel name is not allowed"])
  else
    ((m.client env con.channel con.clientKey).modifyClient con.channel con.clientKey fun c =>
        { c with authenticated := false, connection := some con, connectionTstamp := env.now },
      weh.log (con.channel ++ " " ++ con.clientKey ++ ": Connection opened?") .debug)

/-- The task of `on_close`. -/
def onClose (con : Connection) (m : Clients) : Option (Clients × List Event) :=
  if con.channel.isEmpty then some (m, [])
  else
    let m := m.client env con.channel con.clientKey
    let wasAuthenticated := ((m.get con.channel).get con.clientKey).authenticated
    let r := weh.removeClient env con.channel con.clientKey "on close" m
    if weh.authenticator && wasAuthenticated || !weh.authenticator then
      (weh.sendChannelPresence it env con.channel r.1).map fun r' => (r'.1, r.2 ++ r'.2)
    else some r

/-- `on_error`, which never goes through the pool; `ec` is the text of the error code. -/
def onError (con : Connection) (ec : String) (m : Clients) : Clients × List Event :=
  let r := weh.removeClient env con.channel con.clientKey ("Connection Error " ++ ec) m
  (r.1, weh.log ("Conn: " ++ (con.address ++ "-" ++ toString con.port.toNat) ++ " Message: " ++ ec)
    .error ++ r.2)

end WssEndpointHandler

/-! ## Callbacks -/

/-- A callback of the WebSocket server. -/
inductive Callback
  | onMessage (con : Connection) (inMessage : String)
  | onOpen (con : Connection)
  | onClose (con : Connection)
  | onError (con : Connection) (ec : String)
  deriving DecidableEq

/-- The connection a callback is about. -/
def Callback.con : Callback → Connection
  | .onMessage con _ => con
  | .onOpen con => con
  | .onClose con => con
  | .onError con _ => con

/-- The work of one callback, as the handler runs it inline or as a task of the pool. -/
def WssEndpointHandler.handle (weh : WssEndpointHandler) (it : Iteration) (env : Env)
    (m : Clients) : Callback → Option (Clients × List Event)
  | .onMessage con inMessage => weh.onMessage it env con inMessage m
  | .onOpen con => some (weh.onOpen env con m)
  | .onClose con => weh.onClose it env con m
  | .onError con ec => some (weh.onError env con ec m)

end CppFrame.Server
