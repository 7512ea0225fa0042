import NatProxy.WebRTC.RelayKeys

/-!
# The settings that both peers share

`StartServer` fills the options of its peer connections from its settings, and the `connectionInfo`
of its code from the same settings; `ConnectWebRTC` fills the options of the client from the
`connectionInfo` that it reads (`golib/api.go`). On both sides a group caps the number of peer
connections and splits the data channels over them (`golib/webrtc/group.go`), and each connection
fills what is zero with a default (`golib/webrtc/defaults.go`).

`settings_agree`: whatever the settings of the server are, both sides end up with the same list of
settings, one for each peer connection. The options that are independent on each side (`PeerConfig`,
rate limits) are left out. Numbers are integers.
-/

namespace NatProxy.WebRTC.SyncedSettings

open Lib NatProxy.Server NatProxy.Server.Code WebRTC.Group
open WebRTC.RelayKeys

/-! ## Options and their defaults -/

inductive TransportMode where
  | dataChannels
  | mediaStream
deriving DecidableEq, Repr

/-- What `ServerOptions` and `ClientOptions` have in common. -/
structure Options where
  padding : Bool
  paddingMax : Int
  transportMode : TransportMode := .dataChannels
  obfsKey : List UInt8 := []
  numPeerConnections : Int := 0
  numChannels : Int
  smuxStreamBuffer : Int
  smuxSessionBuffer : Int
  smuxFrameSize : Int
  smuxKeepAlive : Int
  smuxKeepAliveTimeout : Int
  dcMaxBuffered : Int
  dcLowMark : Int
deriving DecidableEq, Repr

def orDefault (n default : Int) : Int := if n = 0 then default else n

/-- The body that `applyServerDefaults` and `applyClientDefaults` share. -/
def applyDefaults (opts : Options) : Options :=
  { opts with
    numChannels := orDefault opts.numChannels 6
    smuxStreamBuffer := orDefault opts.smuxStreamBuffer 2048
    smuxSessionBuffer := orDefault opts.smuxSessionBuffer 8192
    smuxFrameSize := orDefault opts.smuxFrameSize 32768
    smuxKeepAlive := orDefault opts.smuxKeepAlive 10
    smuxKeepAliveTimeout := orDefault opts.smuxKeepAliveTimeout 300
    numPeerConnections := orDefault opts.numPeerConnections 6
    dcMaxBuffered := orDefault opts.dcMaxBuffered 2048
    dcLowMark := orDefault opts.dcLowMark 512
    paddingMax := if opts.paddingMax = 0 ∧ opts.padding = true then 256 else opts.paddingMax }

def applyServerDefaults : Options → Options := applyDefaults

def applyClientDefaults : Options → Options := applyDefaults

/-! ## Groups -/

/-- The split of `total` channels over `npc` connections; the first ones get what is left over. -/
def distributeChannels (total npc : Int) : List Int :=
  if npc ≤ 0 then []
  else
    (List.range npc.toNat).map fun i =>
      -- `/` and `%` of Go round towards zero
      total.tdiv npc + if (i : Int) < total.tmod npc then 1 else 0

/-- The options, and the key that hides the UDP traffic. -/
structure Settings where
  options : Options
  obfsKey : List UInt8
deriving DecidableEq, Repr

/-- The connections of a group of `npc`; `defaults` are those of its side. -/
def startGroup (defaults : Options → Options) (npc : Int) (obfsKey : List UInt8) (opts : Options) :
    List Settings :=
  let n := groupSize npc.toNat
  let channelDist := distributeChannels (orDefault opts.numChannels 6) n
  (List.range n).map fun i =>
    ⟨defaults { opts with numChannels := channelDist.getD i 0 }, obfsKey⟩

def startServerGroup : Int → List UInt8 → Options → List Settings := startGroup applyServerDefaults

/-- The number of offers is checked where the identifiers are derived. -/
def startClientGroup : Int → List UInt8 → Options → List Settings := startGroup applyClientDefaults

/-! ## The key in the code -/

def hexEncode (data : List UInt8) : String := String.ofList (data.flatMap hexByte)

/-- `hex.DecodeString` without its error: what was decoded up to the first wrong digit. -/
def hexDecodeChars : List Char → List UInt8
  | a :: b :: rest =>
    match Text.hexValue a, Text.hexValue b with
    | some hi, some lo => UInt8.ofNat (hi * 16 + lo) :: hexDecodeChars rest
    | _, _ => []
  | _ => []

def hexDecode (s : String) : List UInt8 := hexDecodeChars s.toList

theorem hexDecodeChars_hexByte (b : UInt8) (rest : List Char) :
    hexDecodeChars (hexByte b ++ rest) = b :: hexDecodeChars rest := by
  have hb := b.toNat_lt
  have hhi : Text.hexValue (Json.hexDigit (b.toNat / 16)) = some (b.toNat / 16) :=
    Json.hexValue_hexDigit _ (by omega)
  have hlo : Text.hexValue (Json.hexDigit (b.toNat % 16)) = some (b.toNat % 16) :=
    Json.hexValue_hexDigit _ (by omega)
  show hexDecodeChars (_ :: _ :: rest) = _
  rw [hexDecodeChars, hhi, hlo]
  show UInt8.ofNat (b.toNat / 16 * 16 + b.toNat % 16) :: _ = _
  rw [show b.toNat / 16 * 16 + b.toNat % 16 = b.toNat by omega, UInt8.ofNat_toNat]

theorem hexDecode_hexEncode (data : List UInt8) : hexDecode (hexEncode data) = data := by
  rw [hexDecode, hexEncode, String.toList_ofList]
  induction data with
  | nil => rfl
  | cons b data ih => rw [List.flatMap_cons, hexDecodeChars_hexByte, ih]

/-! ## Server and client -/

def serverOptions (cfg : Start.ServerConfig) (tuning : Tuning) (obfsKey : List UInt8) : Options :=
  let transportMode := if cfg.transportMode = "media" then .mediaStream else .dataChannels
  { padding := tuning.padding
    paddingMax := tuning.paddingMax
    transportMode := transportMode
    obfsKey := if transportMode = .mediaStream then obfsKey else []
    numChannels := tuning.numChannels
    smuxStreamBuffer := tuning.smuxStreamBuffer
    smuxSessionBuffer := tuning.smuxSessionBuffer
    smuxFrameSize := tuning.smuxFrameSize
    smuxKeepAlive := tuning.smuxKeepAlive
    smuxKeepAliveTimeout := tuning.smuxKeepAliveTimeout
    dcMaxBuffered := tuning.dcMaxBuffered
    dcLowMark := tuning.dcLowMark }

def serverNPC (cfg : Start.ServerConfig) : Int :=
  if cfg.numPeerConnections ≤ 0 then 1 else cfg.numPeerConnections

def transportV (info : Info) : Int := info .transportV

def clientOptions (info : Info) : Options :=
  let obfsKey := hexDecode (info .obfsKey)
  { padding := info .padding
    paddingMax := info .paddingMax
    transportMode := if transportV info = 2 then .mediaStream else .dataChannels
    obfsKey := if transportV info = 2 then obfsKey else []
    numChannels := info .numChannels
    smuxStreamBuffer := info .smuxStreamBuffer
    smuxSessionBuffer := info .smuxSessionBuffer
    smuxFrameSize := info .smuxFrameSize
    smuxKeepAlive := info .smuxKeepAlive
    smuxKeepAliveTimeout := info .smuxKeepAliveTimeout
    dcMaxBuffered := info .dcMaxBuffered
    dcLowMark := info .dcLowMark }

/-- The settings of its peer connections, with the offers that it gets. -/
def connectWebRTC (connectionCode : String) (sdpOffers : List String) :
    Except String (List Settings) :=
  match RelayKeys.connectWebRTC connectionCode sdpOffers with
  | .error err => .error err
  | .ok (_, info) =>
    .ok (startClientGroup (clientNPC info.numPeerConns) (hexDecode (info .obfsKey))
      (clientOptions info))

/-- A server with peer connections, with the settings `cfg` and `tuning`. -/
structure Server extends SignalingServer where
  cfg : Start.ServerConfig
  loaded : Start.loadSettings env settingsJSON = .ok cfg
  obfsKey : List UInt8
  generatedKey : env.readObfsKey = .ok (hexEncode obfsKey)

def Server.settings (server : Server) : List Settings :=
  startServerGroup (serverNPC server.cfg) server.obfsKey
    (serverOptions server.cfg server.tuning server.obfsKey)

variable {cfg : Start.ServerConfig} {info : Start.ConnectionInfo}

theorem settings_of_startHolepunch {env : Start.Env} {s t : Start.State} {key : String}
    (hkey : env.readObfsKey = .ok key) (h : Start.startHolepunch env cfg s = (.ok info, t)) :
    info.obfsKey = key ∧ info.numPeerConns = serverNPC cfg ∧
      info.transportV = if cfg.transportMode = "media" then 2 else 0 := by
  rw [Start.startHolepunch, hkey] at h
  dsimp only at h
  split at h
  · cases h
  split at h
  · cases h
  cases h
  exact ⟨rfl, rfl, rfl⟩

theorem settings_of_startServer {env : Start.Env} {settingsJSON key : String} {s t : Start.State}
    (h : Start.startServer env settingsJSON s = (.ok info, t)) (hmethod : info.method = "holepunch")
    (hload : Start.loadSettings env settingsJSON = .ok cfg) (hkey : env.readObfsKey = .ok key) :
    info.obfsKey = key ∧ info.numPeerConns = serverNPC cfg ∧
      info.transportV = if cfg.transportMode = "media" then 2 else 0 := by
  rw [Start.startServer, hload] at h
  split at h
  · cases h
  dsimp only at h
  rw [Start.traverseNAT] at h
  -- hole punching is asked for, or it is what is left when no port was mapped
  split at h
  · exact settings_of_startHolepunch hkey h
  · grind [method_of_startPortMapped, settings_of_startHolepunch]

theorem clientOptions_fill {obfsKey : List UInt8} (tuning : Tuning)
    (hkey : info.obfsKey = hexEncode obfsKey)
    (hmode : info.transportV = if cfg.transportMode = "media" then 2 else 0) :
    clientOptions (fill info tuning) = serverOptions cfg tuning obfsKey := by
  have hdecoded : hexDecode info.obfsKey = obfsKey := by
    rw [hkey]
    exact hexDecode_hexEncode obfsKey
  by_cases hmedia : cfg.transportMode = "media"
  · have hv : transportV (fill info tuning) = 2 := by
      show (info.transportV : Int) = 2
      rw [hmode, if_pos hmedia]
      rfl
    simp only [clientOptions, serverOptions, hv, hmedia, if_true, fill, hdecoded]
  · have hv : transportV (fill info tuning) ≠ 2 := by
      show (info.transportV : Int) ≠ 2
      rw [hmode, if_neg hmedia]
      decide
    simp only [clientOptions, serverOptions, if_neg hv, if_neg hmedia, reduceCtorEq, if_false,
      fill]

theorem startGroup_clientNPC (defaults : Options → Options) (npc : Int) (obfsKey : List UInt8)
    (opts : Options) :
    startGroup defaults (clientNPC npc) obfsKey opts = startGroup defaults npc obfsKey opts := by
  rw [startGroup, groupSize_clientNPC, startGroup]

/-- **Server and client agree on the synced settings.** -/
theorem settings_agree (server : Server) :
    connectWebRTC server.code server.sdpOffers = .ok server.settings := by
  obtain ⟨hkey, hnpc, hmode⟩ := settings_of_startServer server.started server.holepunch
    server.loaded server.generatedKey
  -- the code is read back, and its offers pass the checks of the client
  have hrun : RelayKeys.connectWebRTC server.code server.sdpOffers =
      .ok (server.serverConns, fill server.info server.tuning) :=
    server.run_code .connectWebRTC
  have hopts := clientOptions_fill server.tuning hkey hmode
  have hdecoded : hexDecode (fill server.info server.tuning .obfsKey) = server.obfsKey := by
    show hexDecode server.info.obfsKey = _
    rw [hkey, hexDecode_hexEncode]
  have hconns : (fill server.info server.tuning).numPeerConns = serverNPC server.cfg := hnpc
  rw [connectWebRTC, hrun]
  show Except.ok (startClientGroup _ _ _) = _
  rw [hopts, hdecoded, hconns, startClientGroup, startGroup_clientNPC]
  rfl

def demoServer : Server :=
  { RelayKeys.demoSignaling with
    cfg :=
      { useRelay := true, numPeerConnections := 2, transportMode := "media"
        discoveryURL := ({} : Start.ServerConfig).signalingURL }
    loaded := rfl
    obfsKey := [1, 2]
    generatedKey := rfl }

theorem settings_agree_demo :
    connectWebRTC demoServer.code demoServer.sdpOffers = .ok demoServer.settings ∧
      demoServer.settings.map (fun s => s.options.numChannels) = [2, 1] :=
  ⟨settings_agree demoServer, rfl⟩

end NatProxy.WebRTC.SyncedSettings
