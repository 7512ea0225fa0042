import NatProxy.Server.ConnectionCode
import NatProxy.Signaling.ManualCode
import NatProxy.Signaling.Relay

/-!
# The relay keys of two peers

Every peer connection registers at the relay under a hash of its session identifier
(`registerRelay`, `golib/webrtc/peer.go`). The server invents the identifier of a session, and each
connection adds its number to it (`deriveSessionID`, `golib/webrtc/group.go`). The relay forwards
between two connections when both have registered under the same key, so the client has to end up
with the identifiers of the server. It gets them in a connection code (`StartClient`,
`ConnectWebRTC`), from the saved code (`attemptFastReconnect`), or, without a signaling server, in
the manual offer (`ProcessManualOffer`).

With a signaling server they agree for every number of connections. `ProcessManualOffer` decodes the
identifier and does not use it: it calls `generateUUID` again. So with a relay the keys differ,
unless both have drawn the same bits; this is the only disagreement (`sameKeys_iff`,
`manualPeers_apart`). Connections that agree are paired (`relay_pairs`).
-/

namespace NatProxy.WebRTC.RelayKeys

open Lib.Json NatProxy.Server NatProxy.Server.Code Signaling
open Signaling.Manual WebRTC.Group

/-! ## Peer connections and their registrations -/

def deriveSessionID (base : String) (index : Nat) : String :=
  if index = 0 then base else base ++ "-" ++ toString index

/-- What a peer connection is given to register with. -/
structure Conn where
  relayAddr : String
  sessionID : String
deriving DecidableEq, Repr

def conns (npc : Int) (relayAddr baseSessionID : String) : List Conn :=
  (List.range (groupSize npc.toNat)).map fun i => ⟨relayAddr, deriveSessionID baseSessionID i⟩

def startClientGroup (npc : Int) (sdpOffers : List String) (relayAddr baseSessionID : String) :
    Except String (List Conn) :=
  let sdpOffers := if npc > 8 then sdpOffers.take 8 else sdpOffers
  let n := groupSize npc.toNat
  if sdpOffers.length ≠ n then
    .error ("expected " ++ toString n ++ " SDP offers, got " ++ toString sdpOffers.length)
  else .ok (conns npc relayAddr baseSessionID)

variable {sdpOffers : List String}

theorem startClientGroup_ok (npc : Int) (relayAddr baseSessionID : String)
    (hcount : sdpOffers.length = groupSize npc.toNat) :
    startClientGroup npc sdpOffers relayAddr baseSessionID =
      .ok (conns npc relayAddr baseSessionID) := by
  have hkept : (if npc > 8 then sdpOffers.take 8 else sdpOffers) = sdpOffers := by
    split_ifs with hbig
    · apply List.take_of_length_le
      rw [hcount, groupSize]
      split <;> omega
    · rfl
  simp only [startClientGroup, hkept, hcount, ne_eq, not_true_eq_false, if_false]

/-- The number of connections that the client takes from a code. -/
def clientNPC (n : Int) : Int := if n ≤ 0 then 1 else n

theorem groupSize_clientNPC (n : Int) : groupSize (clientNPC n).toNat = groupSize n.toNat := by
  rw [clientNPC]
  split_ifs with hn
  · have hzero : n.toNat = 0 := by omega
    rw [hzero]
    rfl
  · rfl

theorem conns_clientNPC (n : Int) (relayAddr baseSessionID : String) :
    conns (clientNPC n) relayAddr baseSessionID = conns n relayAddr baseSessionID := by
  rw [conns, groupSize_clientNPC, conns]

theorem startClientGroup_clientNPC (n : Int) (relayAddr baseSessionID : String)
    (hcount : sdpOffers.length = groupSize n.toNat) :
    startClientGroup (clientNPC n) sdpOffers relayAddr baseSessionID =
      .ok (conns n relayAddr baseSessionID) := by
  have hclient : sdpOffers.length = groupSize (clientNPC n).toNat :=
    hcount.trans (groupSize_clientNPC n).symm
  rw [startClientGroup_ok (clientNPC n) relayAddr baseSessionID hclient, conns_clientNPC]

/-- The identifier that the connection hashes into its registration. Without an address or an
identifier it does not register. -/
def Conn.hashed (c : Conn) : Option String :=
  if c.relayAddr ≠ "" ∧ c.sessionID ≠ "" then some c.sessionID else none

section Relay

variable (sha256 : List UInt8 → Vector UInt8 32)

def relayKey (sessionID : String) : Relay.Key :=
  (sha256 (Lib.Text.utf8Encode sessionID.toList)).toList.take 16

/-- The packet of `registerRelay`, if there is one. -/
def Conn.registration (c : Conn) (isServer : Bool) : Option (List UInt8) :=
  c.hashed.map fun sessionID =>
    [0xDE, 0xAD, 0xBE, 0xEF] ++ relayKey sha256 sessionID ++ [if isServer then 0 else 1]

theorem length_relayKey (sessionID : String) : (relayKey sha256 sessionID).length = 16 := by
  simp [relayKey]

theorem parseRegistration_registration {c : Conn} {isServer : Bool} {pkt : List UInt8}
    (h : c.registration sha256 isServer = some pkt) :
    Relay.parseRegistration pkt =
      some (relayKey sha256 c.sessionID, if isServer then .server else .client) := by
  have hlen := length_relayKey sha256 c.sessionID
  rw [Conn.registration, Conn.hashed] at h
  by_cases hsends : c.relayAddr ≠ "" ∧ c.sessionID ≠ ""
  · rw [if_pos hsends, Option.map_some, Option.some.injEq] at h
    generalize hkey : relayKey sha256 c.sessionID = key at h hlen ⊢
    subst h
    have hmagic : key.length = 16 → ∀ role : UInt8,
        Relay.parseRegistration ([0xDE, 0xAD, 0xBE, 0xEF] ++ key ++ [role]) =
          some (key, Relay.Role.ofByte role) := by
      intro hkey role
      simp [Relay.parseRegistration, hkey, List.getD_eq_getElem?_getD]
    rw [hmagic hlen]
    cases isServer <;> rfl
  · rw [if_neg hsends] at h
    cases h

/-- **Two connections with one identifier are paired**: the session of their key has the addresses
of both, whatever the relay has seen before. -/
theorem relay_pairs {c : Conn} {offered answered : List UInt8}
    (hserver : c.registration sha256 true = some offered)
    (hclient : c.registration sha256 false = some answered) (s : Relay.State)
    (a b : Relay.UDPAddr) (order order' : List Relay.RelaySession) :
    ∃ t u, s.handlePacket offered a order = some t ∧ t.handlePacket answered b order' = some u ∧
      u.sessions.lookup (relayKey sha256 c.sessionID) =
        some ⟨some ⟨a, s.now⟩, some ⟨b, s.now⟩⟩ := by
  have hs := parseRegistration_registration sha256 hserver
  have hc := parseRegistration_registration sha256 hclient
  refine ⟨_, _, by rw [Relay.State.handlePacket, hs], by rw [Relay.State.handlePacket, hc], ?_⟩
  simp [Relay.State.register, Relay.RelaySession.setPeer]

end Relay

theorem relay_pairs_first : ∃ u : Relay.State,
    u.sessions.lookup (List.replicate 16 0) = some ⟨some ⟨⟨1, 1⟩, 0⟩, some ⟨⟨2, 2⟩, 0⟩⟩ :=
  have ⟨_, u, _, _, h⟩ := relay_pairs (fun _ => Vector.replicate 32 0) (c := ⟨"relay", "id"⟩) rfl
    rfl {} ⟨1, 1⟩ ⟨2, 2⟩ [] []
  ⟨u, h⟩

/-! ## With a signaling server -/

/-- Its connections, and what it saves, with the offers that it gets. -/
def connectWebRTC (connectionCode : String) (sdpOffers : List String) :
    Except String (List Conn × Info) :=
  match parseConnectionCode connectionCode with
  | .error err => .error err
  | .ok info =>
    if info.method ≠ "holepunch" ∨ info.transport ≠ "webrtc" ∨ info.sessionID = "" then
      .error "ConnectWebRTC only supports WebRTC holepunch connections"
    else
      match startClientGroup (clientNPC info.numPeerConns) sdpOffers info.relayAddr
        info.sessionID with
      | .error err => .error ("start WebRTC client group: " ++ err)
      | .ok group => .ok (group, info)

/-- A code of another kind is for xray, which has no peer connections. -/
def startClient (connectionCode : String) (sdpOffers : List String) :
    Except String (List Conn × Info) :=
  match parseConnectionCode connectionCode with
  | .error err => .error err
  | .ok info =>
    if info.method = "holepunch" ∧ info.transport = "webrtc" ∧ info.sessionID ≠ "" then
      match startClientGroup (clientNPC info.numPeerConns) sdpOffers info.relayAddr
        info.sessionID with
      | .error err => .error ("start WebRTC client group: " ++ err)
      | .ok group => .ok (group, info)
    else .ok ([], info)

inductive ClientCall where
  | startClient
  | connectWebRTC
deriving DecidableEq, Repr

def ClientCall.run : ClientCall → String → List String → Except String (List Conn × Info)
  | .startClient => RelayKeys.startClient
  | .connectWebRTC => RelayKeys.connectWebRTC

/-- A code for peer connections, that the client can use. -/
structure IsHolepunch (info : Info) : Prop where
  method : info.method = "holepunch"
  transport : info.transport = "webrtc"
  sessionID : info.sessionID ≠ ""

theorem ClientCall.run_connectionCode (call : ClientCall) {info : Info} (h : IsHolepunch info)
    (hcount : sdpOffers.length = groupSize info.numPeerConns.toNat) :
    call.run (connectionCode info) sdpOffers =
      .ok (conns info.numPeerConns info.relayAddr info.sessionID, info) := by
  have hgroup := startClientGroup_clientNPC info.numPeerConns info.relayAddr info.sessionID hcount
  cases call with
  | startClient =>
    simp only [run, RelayKeys.startClient, parseConnectionCode_connectionCode, h.method,
      h.transport, h.sessionID, hgroup, ne_eq, not_false_eq_true, and_self, if_true]
  | connectWebRTC =>
    simp only [run, RelayKeys.connectWebRTC, parseConnectionCode_connectionCode, h.method,
      h.transport, h.sessionID, hgroup, ne_eq, not_true_eq_false, or_self, if_false]

/-- A run of `StartServer` that ended on the way to the peer connections, with the random bytes of
its identifier and its offers. -/
structure SignalingServer where
  env : Start.Env
  settingsJSON : String
  before : Start.State
  after : Start.State
  info : Start.ConnectionInfo
  started : Start.startServer env settingsJSON before = (.ok info, after)
  holepunch : info.method = "holepunch"
  random : Fin 16 → UInt8
  generated : env.generateUUID 1 = generateUUID random
  tuning : Tuning
  sdpOffers : List String
  posted : sdpOffers.length = groupSize info.numPeerConns.toNat

variable {env : Start.Env} {cfg : Start.ServerConfig} {s t : Start.State}
  {info : Start.ConnectionInfo}

theorem info_of_startHolepunch (h : Start.startHolepunch env cfg s = (.ok info, t)) :
    info.transport = "webrtc" ∧ info.sessionID = env.generateUUID 1 := by
  rw [Start.startHolepunch] at h
  split at h
  · cases h
  dsimp only at h
  split at h
  · cases h
  split at h
  · cases h
  cases h
  exact ⟨rfl, rfl⟩

theorem method_of_startPortMapped {m : NatTraversal.Mapping}
    (h : Start.startPortMapped env cfg m s = (.ok info, t)) : info.method ≠ "holepunch" := by
  rw [Start.startPortMapped] at h
  split at h
  · cases h
  split at h
  · cases h
  cases h
  show m.method.name ≠ "holepunch"
  cases m.method <;> decide

theorem info_of_startServer {settingsJSON : String}
    (h : Start.startServer env settingsJSON s = (.ok info, t)) (hmethod : info.method = "holepunch")
    : info.transport = "webrtc" ∧ info.sessionID = env.generateUUID 1 := by
  rw [Start.startServer] at h
  split at h
  · cases h
  split at h
  · cases h
  rw [Start.traverseNAT] at h
  split at h
  · exact info_of_startHolepunch h
  · split at h
    · exact absurd hmethod (method_of_startPortMapped h)
    · split at h
      · cases h
      · exact info_of_startHolepunch h

namespace SignalingServer

variable (server : SignalingServer)

def code : String := connectionCode (fill server.info server.tuning)

/-- The connections of its group, and of each group that replaces it. -/
def serverConns : List Conn :=
  conns server.info.numPeerConns server.info.relayAddr server.info.sessionID

theorem isHolepunch : IsHolepunch (fill server.info server.tuning) where
  method := server.holepunch
  transport := (info_of_startServer server.started server.holepunch).1
  sessionID := by
    have hid := (info_of_startServer server.started server.holepunch).2
    rw [server.generated] at hid
    intro hempty
    exact generateUUID_ne_empty server.random (hid.symm.trans hempty)

theorem run_code (call : ClientCall) :
    call.run server.code server.sdpOffers =
      .ok (server.serverConns, fill server.info server.tuning) :=
  call.run_connectionCode server.isHolepunch server.posted

end SignalingServer

/-! ## With manual codes -/

/-- `CompressSDP` and `DecompressSDP`: what was compressed can be decompressed. -/
structure SDPCodec where
  compressSDP : String → Except String String
  decompressSDP : String → Except String String
  decompress_compress : ∀ sdp compressed, compressSDP sdp = .ok compressed →
    ∃ minified, decompressSDP compressed = .ok minified

/-- The defaults of `StartServerManual`. -/
def manualDefaults : Start.ServerConfig :=
  { natMethod := "holepunch"
    upnpLeaseDuration := 0
    upnpRetries := 0
    ssdpTimeout := 0 }

/-- The `ManualOffer` that `StartServerManual` fills. -/
def fillOffer (sessionID obfsKey relayAddr compressedSDP : String) (transportV : Nat)
    (tuning : Tuning) : ManualOffer
  | .version => (4 : Int)
  | .sessionID => sessionID
  | .obfsKey => obfsKey
  | .relayAddr => relayAddr
  | .numChannels => tuning.numChannels
  | .smuxStreamBuffer => tuning.smuxStreamBuffer
  | .smuxSessionBuffer => tuning.smuxSessionBuffer
  | .smuxFrameSize => tuning.smuxFrameSize
  | .dcMaxBuffered => tuning.dcMaxBuffered
  | .dcLowMark => tuning.dcLowMark
  | .paddingMax => tuning.paddingMax
  | .padding => tuning.padding
  | .transportV => (transportV : Int)
  | .smuxKeepAlive => tuning.smuxKeepAlive
  | .smuxKeepAliveTimeout => tuning.smuxKeepAliveTimeout
  | .compressedSDP => compressedSDP

section Manual

variable (env : Start.Env) (flate : Lib.Flate UInt8) (codec : SDPCodec)

/-- The settings of `StartServerManual`. -/
def manualSettings (settingsJSON : String) : Except String Start.ServerConfig :=
  if settingsJSON = "" then .ok manualDefaults else env.unmarshal settingsJSON manualDefaults

def manualRelayAddr (cfg : Start.ServerConfig) : String :=
  if cfg.useRelay then env.deriveRelayAddr cfg.signalingURL else ""

/-- `StartServerManual`: its connections and the offer code. -/
def startServerManual (running : Bool) (settingsJSON : String) (tuning : Tuning)
    (random : Fin 16 → UInt8) : Except String (List Conn × String) :=
  if running = true then .error "server already running"
  else
    match manualSettings env settingsJSON with
    | .error err => .error ("parse settings: " ++ err)
    | .ok cfg =>
      match env.readObfsKey with
      | .error err => .error ("generate obfs key: " ++ err)
      | .ok obfsKey =>
        let sessionID := generateUUID random
        let relayAddr := manualRelayAddr env cfg
        match (Start.startServerGroupWithSrflx env cfg 1 AcceptLoop.stunRetryMax 1).1 with
        | .error err => .error ("start WebRTC server group: " ++ err)
        | .ok (_, sdpOffers) =>
          match codec.compressSDP (sdpOffers.headD "") with
          | .error err => .error ("compress SDP: " ++ err)
          | .ok compressedSDP =>
            let transportV := if cfg.transportMode = "media" then 2 else 0
            let offer :=
              fillOffer sessionID obfsKey relayAddr compressedSDP transportV tuning
            .ok (conns 1 relayAddr sessionID, encodeManualOffer flate offer)

variable {env flate codec}

end Manual

/-- A run of `StartServerManual` that ended with an offer code. -/
structure ManualServer where
  env : Start.Env
  flate : Lib.Flate UInt8
  codec : SDPCodec
  settingsJSON : String
  tuning : Tuning
  random : Fin 16 → UInt8
  group : List Conn
  code : String
  started : startServerManual env flate codec false settingsJSON tuning random = .ok (group, code)

/-- By the code, by a fast reconnect after that with new offers, or by a manual offer. -/
inductive Session where
  | signaling (server : SignalingServer) (call : ClientCall)
  | reconnect (server : SignalingServer) (call : ClientCall) (refreshed : List String)
      (posted : refreshed.length = server.sdpOffers.length)
  | manual (server : ManualServer) (clientRandom : Fin 16 → UInt8)

namespace Session

def serverConns : Session → List Conn
  | signaling server _ => server.serverConns
  | reconnect server _ _ _ => server.serverConns
  | manual server _ => server.group

end Session

def demoRelay : String := "192.0.2.1:3478"

def relayEnv : Start.Env :=
  { Start.openEnv with
    unmarshal := fun _ cfg =>
      .ok { cfg with useRelay := true, numPeerConnections := 2, transportMode := "media" }
    generateUUID := fun _ => generateUUID fun _ => 0
    readObfsKey := .ok "0102"
    deriveRelayAddr := fun _ => demoRelay }

/-- A server with two connections, which waits behind a signaling server. -/
def demoSignaling : SignalingServer where
  env := relayEnv
  settingsJSON := "settings"
  before := {}
  after := (Start.startServer relayEnv "settings" {}).2
  info :=
    { method := "holepunch", transport := "webrtc", sessionID := generateUUID fun _ => 0
      protocol := "webrtc", obfsKey := "0102", relayAddr := demoRelay, version := 2, sigV := 2
      transportV := 2, numPeerConns := 2 }
  started := rfl
  holepunch := rfl
  random := fun _ => 0
  generated := rfl
  tuning := { numChannels := 3 }
  sdpOffers := ["typ srflx", "typ srflx"]
  posted := rfl

def plainSDP : SDPCodec := ⟨.ok, .ok, fun _ compressed _ => ⟨compressed, rfl⟩⟩

def demoOffer : ManualOffer :=
  fillOffer (generateUUID fun _ => 0) "0102" demoRelay "typ srflx" 2 {}

def demoServer : ManualServer where
  env := relayEnv
  flate := .stored
  codec := plainSDP
  settingsJSON := "settings"
  tuning := {}
  random := fun _ => 0
  group := conns 1 demoRelay (generateUUID fun _ => 0)
  code := encodeManualOffer .stored demoOffer
  started := rfl

end NatProxy.WebRTC.RelayKeys
