import CppFrame.SimpleWeb.Client
import CppFrame.SimpleWeb.Http

/-!
# The handshake

`upgrade` of `client_ws.hpp`, `read_handshake` and `write_handshake` of `server_ws.hpp`. The client
asks for a path with a key; the server looks for an endpoint, and answers with what it makes of the
key; the client compares that with its own. Both read the other's message from a stream that may
hold more than it. A client and a server of the library understand each other, and each starts to
read frames with the bytes behind the header (`handshake`), where what the client was set up with
can stand in a request: no blank and no line break in the path and the query string, no line break
in a field, and no field of either `Config` that has the name of one the library makes.

SHA-1 and Base64 come from OpenSSL. In which order an `unordered_multimap` is walked is not
promised: `walk` is any order of its fields.
-/

namespace CppFrame.SimpleWeb

/-- `Crypto`, as far as the handshake uses it. -/
structure Crypto where
  sha1 : String → String
  encode : String → String
  decode : String → String

/-- What is hashed behind the key. -/
def wsMagicString : String := "258EAFA5-E914-47DA-95CA-C5AB0DC85B11"

/-- What both sides make of a key. -/
def Crypto.accept (crypto : Crypto) (key : String) : String := crypto.sha1 (key ++ wsMagicString)

variable (crypto : Crypto) (walk : CaseInsensitiveMultimap → CaseInsensitiveMultimap)

/-! ## The client asks -/

/-- The members of `SocketClientBase` and of its `Config` that `upgrade` reads; `proxied` is whether
a proxy server is set and the socket is a plain one. -/
structure SocketClient.Target where
  host : String
  port : UInt16
  defaultPort : UInt16
  path : String
  proxied : Bool
  header : CaseInsensitiveMultimap

/-- The path that is asked for. -/
def SocketClient.Target.correctedPath (target : SocketClient.Target) : String :=
  if target.proxied then "http://" ++ target.host ++ ":" ++ toString target.port.toNat ++
    target.path else target.path

/-- The fields of the request, in front of those of the `Config`. -/
def SocketClient.Target.fields (target : SocketClient.Target) (nonceBase64 : String) :
    CaseInsensitiveMultimap :=
  [("Host", target.host ++ (if target.port ≠ target.defaultPort then
    ":" ++ toString target.port.toNat else "")),
    ("Upgrade", "websocket"), ("Connection", "Upgrade"), ("Sec-WebSocket-Key", nonceBase64),
    ("Sec-WebSocket-Version", "13")]

/-- `upgrade`: the request. -/
def SocketClient.upgrade (target : SocketClient.Target) (nonceBase64 : String) : List Char :=
  RequestMessage.print "GET" target.correctedPath "1.1"
    (target.fields nonceBase64 ++ walk target.header)

/-! ## The server answers -/

/-- The header of the answer to a request with a key. -/
def SocketServer.responseHeader (configHeader : CaseInsensitiveMultimap) (key : String) :
    CaseInsensitiveMultimap :=
  configHeader ++ [("Upgrade", "websocket"), ("Connection", "Upgrade"),
    ("Sec-WebSocket-Accept", crypto.encode (crypto.accept key))]

/-- `write_handshake`: the answer, and whether it switches protocols. There is none where no
endpoint matches. -/
def SocketServer.writeHandshake (configHeader : CaseInsensitiveMultimap) (endpoint : String → Bool)
    (request : RequestMessage) : Option (List Char × Bool) :=
  if endpoint request.path then
    match request.header.find "Sec-WebSocket-Key" with
    | none => some ("HTTP/1.1 426 Upgrade Required\r\n\r\n".toList, false)
    | some key =>
      some (ResponseMessage.print "1.1" "101 Web Socket Protocol Handshake"
        (walk (SocketServer.responseHeader crypto configHeader key)), true)
  else none

/-! ## The client reads the answer -/

/-- What the client makes of an answer. -/
inductive SocketClient.Answer
  | opened (c : SocketClient.Connection)
  | protocolError
  | permissionDenied

/-- The handler of the answer: the `streambuf` holds a whole header, and what came with it. -/
def SocketClient.onResponse (nonceBase64 : String) (streambuf : List Char) :
    Option SocketClient.Answer :=
  (behindBlankLine streambuf).map fun additional =>
    match ResponseMessage.parse streambuf with
    | none => .protocolError
    | some (response, left) =>
      if response.statusCode.toList.take 4 ≠ "101 ".toList then .permissionDenied
      else
        match response.header.find "Sec-WebSocket-Accept" with
        | none => .protocolError
        | some value =>
          if crypto.decode value = crypto.accept nonceBase64 then
            .opened ⟨{ SocketClient.newInMessage with
              streambuf := left.map fun c => .ofNat c.toNat }, none,
              additional.length, .first⟩
          else .protocolError

/-! ## Client and server understand each other -/

/-- A name that one field has is found. -/
theorem CaseInsensitiveMultimap.find_of_mem {header : CaseInsensitiveMultimap} {name value : String}
    (hmem : (name, value) ∈ header)
    (huniq : ∀ field ∈ header, caseInsensitiveEqual field.1 name = true → field = (name, value)) :
    header.find name = some value := by
  unfold find
  have hself : caseInsensitiveEqual name name = true := caseInsensitiveEqual_iff.2 rfl
  cases hf : List.find? (fun field => caseInsensitiveEqual field.1 name) header with
  | none => exact absurd hself (List.find?_eq_none.1 hf (name, value) hmem)
  | some field =>
    have heq : caseInsensitiveEqual field.1 name = true :=
      List.find?_some (p := fun field : String × String => caseInsensitiveEqual field.1 name) hf
    rw [huniq field (List.mem_of_find?_eq_some hf) heq]
    rfl

/-- The key is found in the request, among the fields of the `Config` in any order. -/
theorem SocketClient.Target.find_key (target : SocketClient.Target) (nonceBase64 : String)
    {header : CaseInsensitiveMultimap}
    (hkey : ∀ field ∈ header, caseInsensitiveEqual field.1 "Sec-WebSocket-Key" = false) :
    CaseInsensitiveMultimap.find (target.fields nonceBase64 ++ header) "Sec-WebSocket-Key" =
      some nonceBase64 := by
  refine CaseInsensitiveMultimap.find_of_mem (by simp [fields]) ?_
  intro field hfield heq
  rcases List.mem_append.1 hfield with hfield | hfield
  · simp only [fields, List.mem_cons, List.not_mem_nil, or_false] at hfield
    rcases hfield with rfl | rfl | rfl | rfl | rfl
    · exact absurd heq (show ¬ caseInsensitiveEqual "Host" "Sec-WebSocket-Key" = true by decide)
    · exact absurd heq (by decide)
    · exact absurd heq (by decide)
    · rfl
    · exact absurd heq (by decide)
  · rw [hkey field hfield] at heq
    cases heq

variable {crypto walk}

/-- What the server makes of the key is found in its answer, among the fields of the `Config` in any
order. -/
theorem SocketServer.find_accept {configHeader : CaseInsensitiveMultimap} {key : String}
    (hwalk : ∀ header, (walk header).Perm header)
    (haccept : ∀ field ∈ configHeader,
      caseInsensitiveEqual field.1 "Sec-WebSocket-Accept" = false) :
    CaseInsensitiveMultimap.find (walk (SocketServer.responseHeader crypto configHeader key))
      "Sec-WebSocket-Accept" =
      some (crypto.encode (crypto.accept key)) := by
  have hwalked : ∀ {header : CaseInsensitiveMultimap} {field},
      field ∈ walk header ↔ field ∈ header :=
    fun {header field} => (hwalk header).mem_iff
  refine CaseInsensitiveMultimap.find_of_mem (hwalked.2 (by simp [responseHeader])) ?_
  intro field hfield heq
  rcases List.mem_append.1 (hwalked.1 hfield) with hfield | hfield
  · rw [haccept field hfield] at heq
    cases heq
  · simp only [List.mem_cons, List.not_mem_nil, or_false] at hfield
    rcases hfield with rfl | rfl | rfl
    · exact absurd heq (by decide)
    · exact absurd heq (by decide)
    · rfl

/-- An answer that has the right value is taken, and what stands behind it is where frames are read
from. -/
theorem SocketClient.onResponse_print {nonceBase64 value : String}
    {header : CaseInsensitiveMultimap} (hprintable : ∀ field ∈ header, Printable field)
    (hfind : header.find "Sec-WebSocket-Accept" = some value)
    (hdecode : crypto.decode value = crypto.accept nonceBase64) (l : List Char) :
    behindBlankLine (ResponseMessage.print "1.1" "101 Web Socket Protocol Handshake"
      header ++ l) = some l ∧
      SocketClient.onResponse crypto nonceBase64
          (ResponseMessage.print "1.1" "101 Web Socket Protocol Handshake" header ++ l) =
        some (.opened (.opened (l.map fun c => .ofNat c.toNat))) := by
  have hblank :
      behindBlankLine (ResponseMessage.print "1.1" "101 Web Socket Protocol Handshake"
      header ++ l) = some l := by
    have hprint : ResponseMessage.print "1.1" "101 Web Socket Protocol Handshake" header ++ l =
        "HTTP/1.1 101 Web Socket Protocol Handshake".toList ++
          '\r' :: '\n' :: (header.flatMap printField ++ '\r' :: '\n' :: l) := by
      unfold ResponseMessage.print
      simp
    rw [hprint]
    exact behindBlankLine_print (by decide) hprintable l
  refine ⟨hblank, ?_⟩
  unfold SocketClient.onResponse
  rw [hblank, ResponseMessage.parse_print ⟨by decide, by decide⟩ (by decide) hprintable]
  simp only [Option.map_some]
  rw [if_neg (by decide), hfind]
  simp only [hdecode, if_true]
  unfold SocketClient.Connection.opened
  rw [List.length_map]

/-- **A client and a server of the library understand each other.** The server reads the path, the
query string and the key of the request, and answers; the client takes the answer; what stands
behind the two headers is what each side starts to read frames from. -/
theorem handshake {target : SocketClient.Target} {nonceBase64 path query : String}
    {configHeader : CaseInsensitiveMultimap} {endpoint : String → Bool}
    (hwalk : ∀ header, (walk header).Perm header)
    (htarget : target.correctedPath = if query = "" then path else path ++ "?" ++ query)
    (hpath : ' ' ∉ path.toList ∧ '\n' ∉ path.toList ∧ '?' ∉ path.toList)
    (hquery : ' ' ∉ query.toList ∧ '\n' ∉ query.toList)
    (hfields : ∀ field ∈ target.fields nonceBase64 ++ target.header, Printable field)
    (hkey : ∀ field ∈ target.header, caseInsensitiveEqual field.1 "Sec-WebSocket-Key" = false)
    (hendpoint : endpoint path = true)
    (hresponse : ∀ field ∈ SocketServer.responseHeader crypto configHeader nonceBase64,
      Printable field)
    (haccept : ∀ field ∈ configHeader, caseInsensitiveEqual field.1 "Sec-WebSocket-Accept" = false)
    (hdecode : crypto.decode (crypto.encode (crypto.accept nonceBase64)) =
      crypto.accept nonceBase64) :
    ∃ request response, request.path = path ∧ request.queryString = query ∧
      (∀ l, RequestMessage.parse (SocketClient.upgrade walk target nonceBase64 ++ l) =
        some (request, l)) ∧
      SocketServer.writeHandshake crypto walk configHeader endpoint request =
        some (response, true) ∧
      ∀ l, SocketClient.onResponse crypto nonceBase64 (response ++ l) =
        some (.opened (.opened (l.map fun c => .ofNat c.toNat))) := by
  have hwalked : ∀ {header : CaseInsensitiveMultimap} {field},
      field ∈ walk header ↔ field ∈ header :=
    fun {header field} => (hwalk header).mem_iff
  let request : RequestMessage :=
    ⟨"GET", path, query, "1.1", target.fields nonceBase64 ++ walk target.header⟩
  have hkeyfield : request.header.find "Sec-WebSocket-Key" = some nonceBase64 :=
    target.find_key nonceBase64 fun field hfield => hkey field (hwalked.1 hfield)
  let header := walk (SocketServer.responseHeader crypto configHeader nonceBase64)
  have hprintable : ∀ field ∈ header, Printable field :=
    fun field hfield => hresponse field (hwalked.1 hfield)
  have hacceptfield : CaseInsensitiveMultimap.find header "Sec-WebSocket-Accept" =
      some (crypto.encode (crypto.accept nonceBase64)) := SocketServer.find_accept hwalk haccept
  refine ⟨request, ResponseMessage.print "1.1" "101 Web Socket Protocol Handshake" header,
    rfl, rfl, ?_, ?_, ?_⟩
  · intro l
    unfold SocketClient.upgrade
    rw [htarget]
    refine RequestMessage.parse_print ⟨by decide, by decide⟩ hpath hquery (by decide) ?_ l
    intro field hfield
    refine hfields field ?_
    rwa [List.mem_append, hwalked, ← List.mem_append] at hfield
  · unfold SocketServer.writeHandshake
    rw [if_pos (show endpoint request.path = true from hendpoint), hkeyfield]
  · exact fun l => (SocketClient.onResponse_print hprintable hacceptfield hdecode l).2

/-- A key, what OpenSSL makes of it, and a client that asks for `room=1`. -/
def sampleKey : String := "dGhlIHNhbXBsZSBub25jZQ=="

def sampleCrypto : Crypto where
  sha1 s := if s = sampleKey ++ wsMagicString then
    textOf [0xb3, 0x7a, 0x4f, 0x2c, 0xc0, 0x62, 0x4f, 0x16, 0x90, 0xf6, 0x46, 0x06, 0xcf, 0x38,
      0x59, 0x45, 0xb2, 0xbe,
      0xc4, 0xea] else ""
  encode _ := "s3pPLMBiTxaQ9kYGzzhZRbK+xOo="
  decode _ := textOf [0xb3, 0x7a, 0x4f, 0x2c, 0xc0, 0x62, 0x4f, 0x16, 0x90, 0xf6, 0x46, 0x06, 0xcf,
    0x38, 0x59, 0x45, 0xb2,
    0xbe, 0xc4, 0xea]

def sampleTarget : SocketClient.Target := ⟨"localhost", 80, 80, "/admin01/?room=1", false, []⟩

theorem handshake_sample :
    ∃ request response, request.path = "/admin01/" ∧ request.queryString = "room=1" ∧
    (∀ l, RequestMessage.parse (SocketClient.upgrade id sampleTarget sampleKey ++ l) =
      some (request, l)) ∧
    SocketServer.writeHandshake sampleCrypto id [] (fun path => path == "/admin01" ||
      path == "/admin01/") request =
      some (response, true) ∧
    ∀ l, SocketClient.onResponse sampleCrypto sampleKey (response ++ l) =
      some (.opened (.opened (l.map fun c => .ofNat c.toNat))) := by
  exact handshake (fun header => .refl header) (by decide) (by decide) (by decide)
    (by decide) nofun (by decide)
    (by decide) nofun (by decide)

end CppFrame.SimpleWeb
