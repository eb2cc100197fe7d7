import CppFrame.SimpleWeb.Query
import CppFrame.SimpleWeb.Serving

/-!
# From the address of a server to a channel

The constructor of `SocketClientBase` of `client_ws.hpp`, with `parse_host_port`. It takes an
address such as `host:port/path`, the host in square brackets where colons stand in it, and reads it
as it was written exactly when the host can be told from what stands around it
(`SocketClient.Target.ofUrl_print_iff`). What stands behind a question mark is what the server takes
as the query string of the connection: the address names the channel (`channel_of_url`), where the
client uses no proxy, and the address and its header fields can stand in a request.
-/

namespace CppFrame.SimpleWeb

/-! ## The constructor -/

/-- `std::stoul`: it throws where there is no digit, or the number does not fit. -/
def stoul (str : List Char) : Option UInt64 :=
  let unsigned (negative : Bool) (str : List Char) : Option UInt64 :=
    let digits := str.takeWhile Char.isDigit
    if digits = [] then none
    else
      let n := Nat.ofDigitChars 10 digits 0
      if n < UInt64.size then some (if negative then -UInt64.ofNat n else .ofNat n) else none
  match str.dropWhile isSpace with
  | '-' :: l => unsigned true l
  | '+' :: l => unsigned false l
  | l => unsigned false l

namespace SocketClient

/-- The variables of the loop of `parse_host_port`. -/
structure HostPort where
  host : List Char
  port : List Char
  parsePort : Bool
  squareCount : Int

/-- One round. -/
def HostPort.step (s : HostPort) (chr : Char) : HostPort :=
  if chr = '[' then { s with squareCount := s.squareCount + 1 }
  else if chr = ']' then { s with squareCount := s.squareCount - 1 }
  else if s.squareCount = 0 ∧ chr = ':' then { s with parsePort := true }
  else if s.parsePort = false then { s with host := s.host ++ [chr] }
  else { s with port := s.port ++ [chr] }

/-- `parse_host_port`. -/
def parseHostPort (hostPort : List Char) (defaultPort : UInt16) : String × UInt16 :=
  let s := hostPort.foldl HostPort.step ⟨[], [], false, 0⟩
  (.ofList s.host, if s.port = [] then defaultPort else (stoul s.port).elim defaultPort
  fun n => n.toUInt16)

/-- The constructor, with what `upgrade` reads of the `Config`. -/
def Target.ofUrl (hostPortPath : String) (defaultPort : UInt16) (proxied : Bool)
    (header : CaseInsensitiveMultimap) :
    Target :=
  let cut := (cut '/' hostPortPath.toList).map fun r => (r.1, '/' :: r.2)
  let hostPort := parseHostPort (cut.elim hostPortPath.toList Prod.fst) defaultPort
  ⟨hostPort.1, hostPort.2, defaultPort, cut.elim "/" fun r => .ofList r.2, proxied, header⟩

end SocketClient

/-! ## Addresses -/

/-- The parts of an address: its path is what stands behind the first slash, if there is one. -/
structure Url where
  host : String
  bracketed : Bool
  port : Option UInt16
  path : Option String

namespace Url

/-- The host as it is written. -/
def printHost (url : Url) : List Char :=
  if url.bracketed then '[' :: url.host.toList ++ [']'] else url.host.toList

def printPort (port : Option UInt16) : List Char :=
  port.elim [] fun n => ':' :: (toString n.toNat).toList

def print (url : Url) : String :=
  .ofList (url.printHost ++ printPort url.port ++ url.path.elim [] fun path => '/' :: path.toList)

/-- The host can be told from what stands around it. -/
structure Valid (url : Url) : Prop where
  bracket : '[' ∉ url.host.toList ∧ ']' ∉ url.host.toList
  slash : '/' ∉ url.host.toList
  colon : url.bracketed = false → ':' ∉ url.host.toList

end Url

namespace SocketClient

variable {url : Url} {l host : List Char} {s : HostPort}

/-- Characters without a meaning of their own are the host's, in front of the port, -/
theorem foldl_host (hl : ∀ c ∈ l, c ≠ '[' ∧ c ≠ ']' ∧ (s.squareCount = 0 → c ≠ ':'))
    (hp : s.parsePort = false) :
    l.foldl HostPort.step s = { s with host := s.host ++ l } := by
  induction l generalizing s with
  | nil => rw [List.foldl_nil, List.append_nil]
  | cons c l ih =>
    obtain ⟨h₁, h₂, h₃⟩ := hl c List.mem_cons_self
    have hstep : s.step c = { s with host := s.host ++ [c] } := by
      unfold HostPort.step
      rw [if_neg h₁, if_neg h₂, if_neg fun h => h₃ h.1 h.2, if_pos hp]
    have hrest := ih (s := { s with host := s.host ++ [c] })
      (fun d hd => hl d (List.mem_cons_of_mem c hd)) hp
    rw [List.foldl_cons, hstep, hrest, List.append_assoc, List.singleton_append]

/-- and the port's, behind the colon. -/
theorem foldl_port (hl : ∀ c ∈ l, c ≠ '[' ∧ c ≠ ']' ∧ c ≠ ':') (hp : s.parsePort = true) :
    l.foldl HostPort.step s = { s with port := s.port ++ l } := by
  induction l generalizing s with
  | nil => rw [List.foldl_nil, List.append_nil]
  | cons c l ih =>
    obtain ⟨h₁, h₂, h₃⟩ := hl c List.mem_cons_self
    have hstep : s.step c = { s with port := s.port ++ [c] } := by
      unfold HostPort.step
      rw [if_neg h₁, if_neg h₂, if_neg fun h => h₃ h.2, if_neg fun h =>
        Bool.noConfusion (hp.symm.trans h)]
    have hrest := ih (s := { s with port := s.port ++ [c] })
      (fun d hd => hl d (List.mem_cons_of_mem c hd)) hp
    rw [List.foldl_cons, hstep, hrest, List.append_assoc, List.singleton_append]

/-- A round adds at most its character to the host, if that has no meaning of its own. -/
theorem mem_step {c d : Char} (h : c ∈ (s.step d).host) :
    c ∈ s.host ∨ c = d ∧ d ≠ '[' ∧ d ≠ ']' ∧ (s.squareCount = 0 → d ≠ ':') := by
  unfold HostPort.step at h
  split_ifs at h with ho hc hcolon hp
  · exact .inl h
  · exact .inl h
  · exact .inl h
  · exact (List.mem_append.1 h).imp id fun hd => ⟨List.mem_singleton.1 hd, ho, hc,
      fun hs he => hcolon ⟨hs, he⟩⟩
  · exact .inl h

theorem squareCount_step {d : Char} (ho : d ≠ '[') (hc : d ≠ ']') :
    (s.step d).squareCount = s.squareCount := by
  unfold HostPort.step
  rw [if_neg ho, if_neg hc]
  split_ifs <;> rfl

/-- A character of the host that is read was written, and is none of those with a meaning of their
own. -/
theorem mem_host {c : Char} (h : c ∈ (l.foldl HostPort.step s).host) :
    c ∈ s.host ∨ c ∈ l ∧ c ≠ '[' ∧ c ≠ ']' ∧ ('[' ∉ l → ']' ∉ l → s.squareCount = 0 → c ≠ ':') := by
  induction l generalizing s with
  | nil => exact .inl h
  | cons d l ih =>
    rcases ih h with hc | ⟨hmem, ho, hc, hcolon⟩
    · rcases mem_step hc with hs | ⟨rfl, ho, hc, hcolon⟩
      · exact .inl hs
      · exact .inr ⟨List.mem_cons_self, ho, hc, fun _ _ => hcolon⟩
    · refine .inr ⟨List.mem_cons_of_mem d hmem, ho, hc, fun hnone hnone' hs => ?_⟩
      rw [List.mem_cons, not_or] at hnone hnone'
      exact hcolon hnone.2 hnone'.2
        ((squareCount_step (Ne.symm hnone.1) (Ne.symm hnone'.1)).trans hs)

/-- What is written of the host is read as the host. -/
theorem foldl_printHost (hurl : url.Valid) (r : List Char) :
    (url.printHost ++ r).foldl HostPort.step ⟨[], [], false, 0⟩ =
      r.foldl HostPort.step ⟨url.host.toList, [], false, 0⟩ := by
  have hhost : ∀ c ∈ url.host.toList, c ≠ '[' ∧ c ≠ ']' := fun c hc =>
    ⟨fun h => hurl.bracket.1 (h ▸ hc), fun h => hurl.bracket.2 (h ▸ hc)⟩
  rw [List.foldl_append]
  congr 1
  unfold Url.printHost
  split_ifs with hb
  · have hread :=
      foldl_host (s := ⟨[], [], false, 1⟩) (fun c hc => ⟨(hhost c hc).1, (hhost c hc).2, nofun⟩) rfl
    rw [List.foldl_append, List.foldl_cons]
    exact congrArg (List.foldl HostPort.step · [']']) hread
  · exact foldl_host (s := ⟨[], [], false, 0⟩)
      (fun c hc => ⟨(hhost c hc).1, (hhost c hc).2,
        fun _ he => hurl.colon (Bool.eq_false_of_not_eq_true hb) (he ▸ hc)⟩) rfl

/-- A number is read as it was written. -/
theorem stoul_repr (n : UInt16) : stoul (toString n.toNat).toList = some n.toUInt64 := by
  rw [Nat.toString_eq_repr, Nat.toList_repr]
  have hdigit : ∀ c ∈ Nat.toDigits 10 n.toNat, c.isDigit = true := fun c hc =>
    Nat.isDigit_of_mem_toDigits (by decide) (by decide) hc
  have hread : Nat.ofDigitChars 10 (Nat.toDigits 10 n.toNat) 0 = n.toNat :=
    Nat.ofDigitChars_toDigits (by decide) (by decide)
  have hlt : n.toNat < UInt64.size := n.toNat_lt.trans (by decide)
  generalize hl : Nat.toDigits 10 n.toNat = l at hdigit hread
  have htake : l.takeWhile Char.isDigit = l := by
    rw [← List.append_nil l, List.takeWhile_append_of_pos hdigit, List.takeWhile_nil]
  match l with
  | [] => exact absurd hl Nat.toDigits_ne_nil
  | c :: l =>
    have hc := hdigit c List.mem_cons_self
    unfold stoul
    rw [List.dropWhile_cons_of_neg (by rw [not_isSpace_of_isDigit hc]; exact Bool.false_ne_true)]
    split
    · cases ‹_ = _›
      cases hc
    · cases ‹_ = _›
      cases hc
    · simp only [htake, hread, reduceCtorEq, if_false, if_pos hlt]
      exact congrArg some (UInt64.toNat_inj.1 (by simp))

theorem isDigit_of_mem_port {n : UInt16} {c : Char} (hc : c ∈ (toString n.toNat).toList) :
    c.isDigit = true := by
  rw [Nat.toString_eq_repr, Nat.toList_repr] at hc
  exact Nat.isDigit_of_mem_toDigits (by decide) (by decide) hc

theorem ne_of_mem_port {n : UInt16} {c d : Char} (hc : c ∈ (toString n.toNat).toList)
    (hd : d.isDigit = false) :
    c ≠ d := by
  rintro rfl
  exact Bool.noConfusion ((isDigit_of_mem_port hc).symm.trans hd)

/-- The host and the port are read as they were written. -/
theorem parseHostPort_print (hurl : url.Valid) (defaultPort : UInt16) :
    parseHostPort (url.printHost ++ Url.printPort url.port) defaultPort =
      (url.host, url.port.getD defaultPort) := by
  unfold parseHostPort
  rw [foldl_printHost hurl]
  cases url.port with
  | none => exact Prod.ext String.ofList_toList rfl
  | some n =>
    have hread := foldl_port (s := ⟨url.host.toList, [], true, 0⟩) (l := (toString n.toNat).toList)
      (fun c hc => ⟨ne_of_mem_port hc rfl, ne_of_mem_port hc rfl, ne_of_mem_port hc rfl⟩) rfl
    have hcolon : HostPort.step ⟨url.host.toList, [], false, 0⟩ ':' =
      ⟨url.host.toList, [], true, 0⟩ := rfl
    have hne : (toString n.toNat).toList ≠ [] := by
      rw [Nat.toString_eq_repr, Nat.toList_repr]
      exact Nat.toDigits_ne_nil
    unfold Url.printPort
    rw [Option.elim_some, List.foldl_cons, hcolon, hread]
    dsimp only
    rw [List.nil_append, if_neg hne, stoul_repr, String.ofList_toList]
    exact congrArg (Prod.mk url.host) (UInt16.toNat_inj.1 (by simp))

/-- The part in front of the first slash has none. -/
theorem slash_notMem_front (l : List Char) :
    '/' ∉ ((cut '/' l).map fun r => (r.1, '/' :: r.2)).elim l Prod.fst := by
  induction l with
  | nil => exact List.not_mem_nil
  | cons d l ih =>
    unfold cut
    split_ifs with hd
    · exact List.not_mem_nil
    · cases hc : cut '/' l with
      | none =>
        rw [hc] at ih
        exact fun h => (List.mem_cons.1 h).elim (fun h => hd h.symm) ih
      | some r =>
        rw [hc] at ih
        exact fun h => (List.mem_cons.1 h).elim (fun h => hd h.symm) ih

/-- A character that is not in the host, and not one of those around it. -/
theorem notMem_front {c : Char} (hdigit : c.isDigit = false) (hcolon : c ≠ ':')
    (hbracket : url.bracketed = true → c ≠ '[' ∧ c ≠ ']') (h : c ∉ url.host.toList) :
    c ∉ url.printHost ++ Url.printPort url.port := by
  have hhost : c ∉ url.printHost := by
    unfold Url.printHost
    split_ifs with hb
    · obtain ⟨ho, hc⟩ := hbracket hb
      simp [h, ho, hc]
    · exact h
  have hport : c ∉ Url.printPort url.port := by
    cases url.port with
    | none => exact List.not_mem_nil
    | some n => exact fun h => (List.mem_cons.1 h).elim hcolon fun h => ne_of_mem_port h hdigit rfl
  exact fun h => (List.mem_append.1 h).elim hhost hport

theorem slash_notMem (h : '/' ∉ url.host.toList) : '/' ∉ url.printHost ++ Url.printPort url.port :=
  notMem_front rfl (by decide) (fun _ => ⟨by decide, by decide⟩) h

/-- An address is cut in front of its path. -/
theorem cut_print (hslash : '/' ∉ url.host.toList) :
    (cut '/' url.print.toList).map (fun r => (r.1, '/' :: r.2)) =
    url.path.map fun path => (url.printHost ++ Url.printPort url.port, '/' :: path.toList) := by
  unfold Url.print
  rw [String.toList_ofList]
  cases url.path with
  | none =>
    rw [Option.elim_none, List.append_nil, cut_eq_none (slash_notMem hslash)]
    rfl
  | some path =>
    rw [Option.elim_some, cut_append (slash_notMem hslash)]
    rfl

theorem front_print (hslash : '/' ∉ url.host.toList) :
    ((cut '/' url.print.toList).map fun r => (r.1, '/' :: r.2)).elim url.print.toList Prod.fst =
      url.printHost ++ Url.printPort url.port := by
  rw [cut_print hslash]
  unfold Url.print
  rw [String.toList_ofList]
  cases url.path with
  | none => exact List.append_nil _
  | some path => rfl

/-- What is written of the parts of a valid address. -/
theorem Target.ofUrl_print (hurl : url.Valid) (defaultPort : UInt16) (proxied : Bool)
    (header : CaseInsensitiveMultimap) : Target.ofUrl url.print defaultPort proxied header =
      ⟨url.host, url.port.getD defaultPort, defaultPort, "/" ++ url.path.getD "",
        proxied, header⟩ := by
  have hread := parseHostPort_print hurl defaultPort
  unfold Target.ofUrl
  dsimp only
  rw [front_print hurl.slash, hread, cut_print hurl.slash]
  cases url.path with
  | none => rfl
  | some path =>
    have hpath : String.ofList ('/' :: path.toList) = "/" ++ path := by
      rw [← String.toList_inj, String.toList_ofList, String.toList_append]
      rfl
    exact congrArg (fun p => Target.mk url.host (url.port.getD defaultPort)
      defaultPort p proxied header) hpath

/-- **An address is read as it was written** exactly when its host can be told from what stands
around it. -/
theorem Target.ofUrl_print_iff (url : Url) (defaultPort : UInt16) (proxied : Bool)
    (header : CaseInsensitiveMultimap) :
    Target.ofUrl url.print defaultPort proxied header =
        ⟨url.host, url.port.getD defaultPort, defaultPort, "/" ++
          url.path.getD "", proxied, header⟩ ↔
      url.Valid := by
  constructor
  · intro h
    have hhost := congrArg (fun target => target.host.toList) h
    unfold Target.ofUrl parseHostPort at hhost
    dsimp only at hhost
    rw [String.toList_ofList] at hhost
    have hmem : ∀ c ∈ url.host.toList, _ :=
      fun c hc => (mem_host (hhost ▸ hc)).resolve_left List.not_mem_nil
    have hslash : '/' ∉ url.host.toList := fun hc => slash_notMem_front _ (hmem _ hc).1
    rw [front_print hslash] at hmem
    have hopen : '[' ∉ url.host.toList := fun hc => (hmem _ hc).2.1 rfl
    have hclose : ']' ∉ url.host.toList := fun hc => (hmem _ hc).2.2.1 rfl
    refine ⟨⟨hopen, hclose⟩, hslash, fun hb hc => ?_⟩
    have hnone : ¬ url.bracketed = true := ne_true_of_eq_false hb
    exact (hmem _ hc).2.2.2 (notMem_front rfl (by decide) (absurd · hnone) hopen)
      (notMem_front rfl (by decide) (absurd · hnone) hclose) rfl rfl
  · exact fun hurl => ofUrl_print hurl defaultPort proxied header

end SocketClient

/-! ## What the server makes of it -/

variable {walk : CaseInsensitiveMultimap → CaseInsensitiveMultimap} {url : Url}
  {defaultPort : UInt16} {header : CaseInsensitiveMultimap} {nonceBase64 path query : String}

/-- The fields of the request can be read back. -/
theorem printable_of_url (hhost : '\n' ∉ url.host.toList ∧ url.host.toList.head? ≠ some ' ')
    (hnonce : Printable ("Sec-WebSocket-Key", nonceBase64)) (port : UInt16) (path : String)
    (proxied : Bool) {field : String × String}
    (hfield : field ∈ SocketClient.Target.fields ⟨url.host, port, defaultPort, path, proxied,
      header⟩ nonceBase64) :
    Printable field := by
  simp only [SocketClient.Target.fields, List.mem_cons, List.not_mem_nil, or_false] at hfield
  rcases hfield with rfl | rfl | rfl | rfl | rfl
  · have hport : '\n' ∉ (toString port.toNat).toList :=
      fun hc => SocketClient.ne_of_mem_port hc rfl rfl
    refine ⟨show ':' ∉ "Host".toList by decide, show '\n' ∉ "Host".toList by decide, ?_, ?_⟩
    · dsimp only
      rw [String.toList_append, List.mem_append, not_or]
      refine ⟨hhost.1, ?_⟩
      split_ifs
      · rw [String.toList_append, List.mem_append, not_or]
        exact ⟨by decide, hport⟩
      · exact List.not_mem_nil
    · dsimp only
      rw [String.toList_append]
      cases hl : url.host.toList with
      | nil =>
        split_ifs
        · rw [String.toList_append]
          exact fun h => absurd (Option.some.inj h) (by decide)
        · exact fun h => by cases h
      | cons c l =>
        rw [List.cons_append, List.head?_cons, ← List.head?_cons (l := l), ← hl]
        exact hhost.2
  · decide
  · decide
  · exact hnonce
  · decide

/-- The request of a client with such an address is read by the server. -/
theorem parse_of_url (hwalk : ∀ header, (walk header).Perm header) (hurl : url.Valid)
    (hpath : url.path = some (if query = "" then path else path ++ "?" ++ query))
    (hclean : ' ' ∉ path.toList ∧ '\n' ∉ path.toList ∧ '?' ∉ path.toList)
    (hquery : ' ' ∉ query.toList ∧ '\n' ∉ query.toList)
    (hhost : '\n' ∉ url.host.toList ∧ url.host.toList.head? ≠ some ' ')
    (hnonce : Printable ("Sec-WebSocket-Key", nonceBase64))
    (hheader : ∀ field ∈ header, Printable field) (rest : List Char) :
    ∃ target : SocketClient.Target,
      RequestMessage.parse (SocketClient.upgrade walk (.ofUrl url.print defaultPort false header)
        nonceBase64 ++ rest) =
        some (⟨"GET", "/" ++ path, query, "1.1", target.fields nonceBase64 ++
          walk header⟩, rest) := by
  let target : SocketClient.Target := ⟨url.host, url.port.getD defaultPort, defaultPort,
    "/" ++ (if query = "" then path else path ++ "?" ++ query), false, header⟩
  have htarget : SocketClient.Target.ofUrl url.print defaultPort false header = target := by
    rw [SocketClient.Target.ofUrl_print hurl, hpath, Option.getD_some]
  have hcorrected : target.correctedPath = if query = "" then "/" ++ path else "/" ++
      path ++ "?" ++ query := by
    unfold SocketClient.Target.correctedPath
    rw [if_neg Bool.false_ne_true]
    unfold target
    split_ifs
    · rfl
    · rw [String.append_assoc, String.append_assoc, String.append_assoc]
  have hfields : ∀ field ∈ target.fields nonceBase64 ++ walk header, Printable field :=
    fun field hfield =>
    (List.mem_append.1 hfield).elim (printable_of_url hhost hnonce _ _ _) fun hfield =>
      hheader field ((hwalk header).mem_iff.1 hfield)
  have hpath' : ' ' ∉ ("/" ++ path).toList ∧ '\n' ∉ ("/" ++ path).toList ∧
      '?' ∉ ("/" ++ path).toList := by
    simpa [String.toList_append] using hclean
  refine ⟨target, ?_⟩
  rw [htarget]
  unfold SocketClient.upgrade
  rw [hcorrected]
  exact RequestMessage.parse_print ⟨by decide, by decide⟩ hpath' hquery (by decide) hfields rest

/-- A request with a key is answered, where an endpoint matches. -/
theorem Setup.readHandshake_of_parse (setup : Setup) {streambuf : List UInt8}
    {request : RequestMessage} {left : List Char} {key : String}
    (hparse : RequestMessage.parse (charsOf streambuf) = some (request, left))
    (hendpoint : setup.endpoint request.path = true)
    (hkey : request.header.find "Sec-WebSocket-Key" = some key) (id : Nat)
    (remoteEndpoint : Option (String × UInt16)) : ∃ response,
      setup.readHandshake id streambuf remoteEndpoint =
        (.answering (connection id remoteEndpoint request) (left.map fun c => .ofNat c.toNat) true,
          [.answer id response]) := by
  unfold readHandshake SocketServer.writeHandshake
  rw [hparse]
  dsimp only
  rw [if_pos hendpoint, hkey]
  exact ⟨_, rfl⟩

/-- **The address names the channel.** A server whose endpoint matches the path answers the client,
and takes it for one of the channel that the letters and digits behind the question mark make up. -/
theorem channel_of_url {setup : Setup} {id : Nat} {remoteEndpoint : Option (String × UInt16)}
    {streambuf : List UInt8} {rest : List Char} (hwalk : ∀ header, (walk header).Perm header)
    (hurl : url.Valid) (hpath : url.path = some (if query = "" then path else path ++ "?" ++ query))
    (hclean : ' ' ∉ path.toList ∧ '\n' ∉ path.toList ∧ '?' ∉ path.toList)
    (hquery : ' ' ∉ query.toList ∧ '\n' ∉ query.toList)
    (hhost : '\n' ∉ url.host.toList ∧ url.host.toList.head? ≠ some ' ')
    (hnonce : Printable ("Sec-WebSocket-Key", nonceBase64))
    (hheader : ∀ field ∈ header, Printable field ∧
      caseInsensitiveEqual field.1 "Sec-WebSocket-Key" = false)
    (hendpoint : setup.endpoint ("/" ++ path) = true)
    (hread : charsOf streambuf = SocketClient.upgrade walk
      (.ofUrl url.print defaultPort false header) nonceBase64 ++ rest) :
    ∃ con response, Stage.step setup id .handshaking (.header streambuf remoteEndpoint) =
        some (.answering con (rest.map fun c => .ofNat c.toNat) true, [.answer id response]) ∧
      con.channel = String.ofList (query.toList.filter Char.isAlphanum) := by
  obtain ⟨target, hparse⟩ := parse_of_url hwalk hurl hpath hclean hquery hhost hnonce
    (fun field hfield => (hheader field hfield).1) rest
  rw [← hread] at hparse
  have hkey := target.find_key nonceBase64 fun field hfield =>
    (hheader field ((hwalk header).mem_iff.1 hfield)).2
  obtain ⟨response, hstep⟩ := setup.readHandshake_of_parse hparse hendpoint hkey id remoteEndpoint
  exact ⟨_, response, congrArg some hstep, rfl⟩

/-- An address, and what a client with it sends. -/
def sampleUrl : Url := ⟨"localhost", false, some 8080, some "a?room=1"⟩

def sampleUpgrade : List Char :=
  SocketClient.upgrade id (.ofUrl sampleUrl.print 80 false []) sampleKey

theorem channel_of_url_room : ∃ con response, Stage.step (Endpoint.sampleSetup 0) 1 .handshaking
      (.header (bytesOf (.ofList sampleUpgrade)) none) =
        some (.answering con (([] : List Char).map fun c => .ofNat c.toNat) true,
          [.answer 1 response]) ∧
    con.channel = String.ofList ("room=1".toList.filter Char.isAlphanum) := by
  have hread : charsOf (bytesOf (.ofList sampleUpgrade)) = sampleUpgrade :=
    charsOf_bytesOf (by decide +kernel)
  have hpath : sampleUrl.path = some (if "room=1" = "" then "a" else "a" ++ "?" ++ "room=1") := rfl
  have hnonce : Printable ("Sec-WebSocket-Key", sampleKey) := by decide
  exact channel_of_url (fun header => .refl header)
    ⟨by decide, by decide, fun _ => by decide⟩ hpath (by decide)
    (by decide) (by decide) hnonce (List.forall_mem_nil _)
    rfl (hread.trans (List.append_nil _).symm)

end CppFrame.SimpleWeb
