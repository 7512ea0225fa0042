import NatProxy.Lib.Text
import NatProxy.NatTraversal.UPnP
import NatProxy.Server.AcceptLoop
import NatProxy.Server.Discovery

/-!
# `StartServer`

Model of `StartServer` (`golib/api.go`), `StartXray` (`golib/xray`) and `StartServerGroup`
(`golib/webrtc/group.go`) with every error exit. The call reads the settings, tries a port mapping,
and then starts xray behind it; without a mapping it starts a group of peer connections and posts
their offers. It holds the mutex from its beginning to its end. What the network, the libraries and
the random generators answer is in `Env`.

A failed call should leave nothing behind (`Undone`). But on the way to xray the lease of `TryUPnP`
stays, and is renewed for ever, when the configuration cannot be built or xray cannot be started,
and an instance whose start fails is not closed. These are the only cases (`startServer_undone_iff`,
`xrayFails_leaseStays`).

The model of the accept loop takes a successful call for one step and leaves out the failed ones;
`startServer_refines` says that it may.
-/

namespace NatProxy.Server.Start

open NatTraversal WebRTC.Group List
open AcceptLoop (stunRetryMax)
open Discovery (defaultSignalingURL)

/-- `serverConfig`, without what only tunes the peer connections. -/
structure ServerConfig where
  listenPort : Int := 10853
  signalingURL : String := defaultSignalingURL
  discoveryURL : String := ""
  natMethod : String := "auto"
  useRelay : Bool := false
  protocol : String := "socks"
  transport : String := "kcp"
  socksAuth : String := "noauth"
  socksUsername : String := ""
  socksPassword : String := ""
  socksUDP : Bool := true
  kcpMTU : Int := 1350
  kcpTTI : Int := 20
  kcpUplinkCapacity : Int := 12
  kcpDownlinkCapacity : Int := 100
  kcpCongestion : Bool := true
  kcpReadBufferSize : Int := 4
  kcpWriteBufferSize : Int := 4
  xhttpPath : String := "/"
  xhttpHost : String := ""
  xhttpMode : String := "auto"
  finalMaskType : String := "header-dtls"
  finalMaskPassword : String := ""
  finalMaskDomain : String := ""
  upnpLeaseDuration : Int := 3600
  upnpRetries : Int := 3
  ssdpTimeout : Int := 3
  numPeerConnections : Int := 0
  transportMode : String := ""
  uuid : String := ""
deriving DecidableEq, Repr

structure ConnectionInfo where
  publicIP : String := ""
  port : Int := 0
  uuid : String := ""
  transport : String := ""
  method : String := ""
  sessionID : String := ""
  protocol : String := ""
  proxySettings : String := ""
  obfsKey : String := ""
  relayAddr : String := ""
  version : Nat := 0
  sigV : Nat := 0
  transportV : Nat := 0
  numPeerConns : Int := 0
deriving DecidableEq, Repr

/-- `startInstance` also tells whether some features run on when the start fails; `startPeer` is
`StartServer` of the WebRTC package, for the attempt and the number of the peer connection. -/
structure Env where
  gateway : Gateway
  unmarshal : String → ServerConfig → Except String ServerConfig
  normalizeHTTPBase : String → Except String String
  generateUUID : Nat → String
  buildProxySettingsJSON : ServerConfig → String
  buildServerConfig : String → Int → String → String → Except String String
  loadJSONConfig : String → Option String
  newInstance : String → Option String
  startInstance : String → Option (String × Bool)
  readObfsKey : Except String String
  deriveRelayAddr : String → String
  startPeer : ServerConfig → Nat → Nat → Except String String
  postSDPOffers : String → String → List String → Option String

/-- The globals, the instances of xray that run, and the groups made so far. -/
structure State where
  serverRunning : Bool := false
  serverInfo : Option ConnectionInfo := none
  serverMethod : String := ""
  serverCancel : Option Nat := none
  activeWebRTCServerGroup : Option Nat := none
  leases : Leases := {}
  xrayInstance : Option Nat := none
  runningInstances : List Nat := []
  nInstances : Nat := 0
  groups : List ServerGroup := []
  nLoops : Nat := 0
deriving DecidableEq, Repr

variable (env : Env)

/-! ## Settings -/

def loadSettings (settingsJSON : String) : Except String ServerConfig :=
  match (if settingsJSON = "" then .ok {} else env.unmarshal settingsJSON {}) with
  | .error err => .error ("parse settings: " ++ err)
  | .ok cfg =>
    match env.normalizeHTTPBase cfg.signalingURL with
    | .error err => .error ("invalid signalingUrl: " ++ err)
    | .ok signalingURL =>
      let discoveryURL := if cfg.discoveryURL = "" then signalingURL else cfg.discoveryURL
      match env.normalizeHTTPBase discoveryURL with
      | .error err => .error ("invalid discoveryUrl: " ++ err)
      | .ok discoveryURL =>
        .ok { cfg with signalingURL := signalingURL, discoveryURL := discoveryURL }

def ServerConfig.upnpProto (cfg : ServerConfig) : String :=
  if cfg.protocol = "vless" ∧ cfg.transport = "kcp" then "UDP" else "TCP"

def ServerConfig.upnpOptions (cfg : ServerConfig) : UPnPOptions :=
  ⟨cfg.upnpLeaseDuration, cfg.upnpRetries, cfg.ssdpTimeout⟩

def ServerConfig.uuidOrRandom (cfg : ServerConfig) : String :=
  if cfg.uuid = "" then env.generateUUID 0 else cfg.uuid

/-! ## Behind a port mapping -/

/-- `StartXray`. An instance whose start fails is dropped without being closed. -/
def startXray (configJSON : String) (s : State) : Option String × State :=
  if s.xrayInstance.isSome then (some "xray already running", s)
  else
    match env.loadJSONConfig configJSON with
    | some err => (some ("load config: " ++ err), s)
    | none =>
      match env.newInstance configJSON with
      | some err => (some ("create instance: " ++ err), s)
      | none =>
        let inst := s.nInstances
        match env.startInstance configJSON with
        | some (err, running) =>
          (some ("start: " ++ err),
            { s with
              runningInstances :=
                if running then s.runningInstances ++ [inst] else s.runningInstances
              nInstances := inst + 1 })
        | none =>
          (none,
            { s with
              xrayInstance := some inst
              runningInstances := s.runningInstances ++ [inst]
              nInstances := inst + 1 })

def serverConfigJSON (cfg : ServerConfig) : Except String String :=
  env.buildServerConfig "0.0.0.0" cfg.listenPort (cfg.uuidOrRandom env)
    (env.buildProxySettingsJSON cfg)

def startPortMapped (cfg : ServerConfig) (m : Mapping) (s : State) :
    Except String ConnectionInfo × State :=
  match serverConfigJSON env cfg with
  | .error err => (.error ("build server config: " ++ err), s)
  | .ok configJSON =>
    match startXray env configJSON s with
    | (some err, t) => (.error ("start xray: " ++ err), t)
    | (none, t) =>
      let info : ConnectionInfo :=
        { publicIP := m.externalIP
          port := m.port
          uuid := cfg.uuidOrRandom env
          transport := cfg.transport
          method := m.method.name
          protocol := cfg.protocol
          proxySettings := env.buildProxySettingsJSON cfg }
      (.ok info,
        { t with
          serverInfo := some info
          serverMethod := m.method.name
          serverRunning := true })

/-! ## Peer connections -/

/-- `StartServerGroup` from number `i` on, with `left` to start; an error stops the servers so far.
-/
def startServers (start : Nat → Except String String) :
    Nat → Nat → ServerGroup → List String → Except String (List String) × ServerGroup
  | 0, _, servers, offers => (.ok offers, servers)
  | left + 1, i, servers, offers =>
    match start i with
    | .error err => (.error ("start server PC " ++ toString i ++ ": " ++ err), stop servers)
    | .ok sdp => startServers start left (i + 1) (servers ++ [{}]) (offers ++ [sdp])

def hasSrflx (sdps : List String) : Bool :=
  sdps.any fun sdp => Lib.Text.contains "typ srflx".toList sdp.toList

/-- From number `attempt` on, with `left` attempts left: the error, or the group with its offers;
and the groups that were stopped again. -/
def startServerGroupWithSrflx (cfg : ServerConfig) (npc : Nat) :
    Nat → Nat → Except String (ServerGroup × List String) × List ServerGroup
  | 0, _ => (.error ("STUN discovery failed after " ++ toString stunRetryMax ++
      " attempts — no srflx candidate"), [])
  | left + 1, attempt =>
    match startServers (env.startPeer cfg attempt) (groupSize npc) 0 [] [] with
    | (.error err, group) => (.error err, [group])
    | (.ok sdps, group) =>
      if hasSrflx sdps then (.ok (group, sdps), [])
      else
        let (result, stopped) := startServerGroupWithSrflx cfg npc left (attempt + 1)
        (result, stop group :: stopped)

def startHolepunch (cfg : ServerConfig) (s : State) : Except String ConnectionInfo × State :=
  match env.readObfsKey with
  | .error err => (.error ("generate obfs key: " ++ err), s)
  | .ok obfsKey =>
    let sessionID := env.generateUUID 1
    let relayAddr := if cfg.useRelay then env.deriveRelayAddr cfg.signalingURL else ""
    let npc := if cfg.numPeerConnections ≤ 0 then 1 else cfg.numPeerConnections
    match startServerGroupWithSrflx env cfg npc.toNat stunRetryMax 1 with
    | (.error err, stopped) =>
      (.error ("start WebRTC server group: " ++ err), { s with groups := s.groups ++ stopped })
    | (.ok (wrtcGroup, sdpOffers), stopped) =>
      match env.postSDPOffers cfg.signalingURL sessionID sdpOffers with
      | some err =>
        (.error ("post SDP offers: " ++ err),
          { s with groups := s.groups ++ (stopped ++ [stop wrtcGroup]) })
      | none =>
        let info : ConnectionInfo :=
          { method := "holepunch"
            transport := "webrtc"
            sessionID := sessionID
            protocol := "webrtc"
            obfsKey := obfsKey
            relayAddr := relayAddr
            version := 2
            sigV := 2
            transportV := if cfg.transportMode = "media" then 2 else 0
            numPeerConns := npc }
        (.ok info,
          { s with
            groups := s.groups ++ (stopped ++ [wrtcGroup])
            activeWebRTCServerGroup := some (s.groups.length + stopped.length)
            serverMethod := "holepunch"
            serverCancel := some s.nLoops
            nLoops := s.nLoops + 1
            serverInfo := some info
            serverRunning := true })

/-! ## The call -/

def traverseNAT (cfg : ServerConfig) (s : State) : Except String ConnectionInfo × State :=
  if cfg.natMethod = "holepunch" then startHolepunch env cfg s
  else
    match tryPortMapping env.gateway cfg.listenPort cfg.listenPort cfg.upnpProto cfg.upnpOptions 0
      s.leases with
    | (.ok m, leases) => startPortMapped env cfg m { s with leases := leases }
    | (.error _, leases) =>
      if cfg.natMethod = "upnp" then
        (.error "NAT traversal failed: port mapping mode selected but all methods failed",
          { s with leases := leases })
      else startHolepunch env cfg { s with leases := leases }

/-- The connection code that it returns is the encoded `ConnectionInfo`. -/
def startServer (settingsJSON : String) (s : State) : Except String ConnectionInfo × State :=
  if s.serverRunning = true then (.error "server already running", s)
  else
    match loadSettings env settingsJSON with
    | .error err => (.error err, s)
    | .ok cfg => traverseNAT env cfg s

/-! ## What a failed call leaves behind -/

/-- The globals are as before, and no group that was made is running. -/
structure Keeps (s t : State) : Prop where
  xrayInstance : t.xrayInstance = s.xrayInstance
  groups : ∃ stopped, t.groups = s.groups ++ stopped ∧ ∀ group ∈ stopped, Stopped group
  serverRunning : t.serverRunning = s.serverRunning
  serverInfo : t.serverInfo = s.serverInfo
  serverMethod : t.serverMethod = s.serverMethod
  serverCancel : t.serverCancel = s.serverCancel
  activeWebRTCServerGroup : t.activeWebRTCServerGroup = s.activeWebRTCServerGroup
  nLoops : t.nLoops = s.nLoops

/-- Nothing is left behind: no new lease, no renewal and no running instance of xray either. -/
structure Undone (s t : State) : Prop extends Keeps s t where
  activeLeases : t.leases.activeLeases = s.leases.activeLeases
  renewals : t.leases.renewals = s.leases.renewals
  runningInstances : t.runningInstances = s.runningInstances

theorem Undone.refl (s : State) : Undone s s where
  activeLeases := rfl
  renewals := rfl
  xrayInstance := rfl
  runningInstances := rfl
  groups := ⟨[], (append_nil s.groups).symm, fun _ h => absurd h not_mem_nil⟩
  serverRunning := rfl
  serverInfo := rfl
  serverMethod := rfl
  serverCancel := rfl
  activeWebRTCServerGroup := rfl
  nLoops := rfl

theorem undone_of_stopped (s : State) {stopped : List ServerGroup}
    (h : ∀ group ∈ stopped, Stopped group) :
    Undone s { s with groups := s.groups ++ stopped } :=
  { Undone.refl s with groups := ⟨stopped, rfl, h⟩ }

variable {left : Nat} {group : ServerGroup} {err : String}

theorem stopped_of_startServers_error {start : Nat → Except String String} {i : Nat}
    {servers : ServerGroup} {offers : List String}
    (h : startServers start left i servers offers = (.error err, group)) : Stopped group := by
  induction left generalizing i servers offers with
  | zero => rw [startServers] at h; cases h
  | succ left ih =>
    rw [startServers] at h
    split at h
    case h_1 => cases h; exact stopped_stop servers
    case h_2 => exact ih h

theorem stopped_of_startServerGroupWithSrflx (cfg : ServerConfig) (npc left attempt : Nat) :
    ∀ group ∈ (startServerGroupWithSrflx env cfg npc left attempt).2, Stopped group := by
  induction left generalizing attempt with
  | zero => exact fun _ h => absurd h not_mem_nil
  | succ left ih =>
    rw [startServerGroupWithSrflx]
    split
    case h_1 err group hstart =>
      intro g hg
      rw [mem_singleton.mp hg]
      exact stopped_of_startServers_error hstart
    case h_2 sdps group hstart =>
      grind [mem_cons.mp, stopped_stop]

variable {a : AcceptLoop.State} {s : State}

variable {cfg : ServerConfig}

theorem startHolepunch_undone (h : (startHolepunch env cfg s).1 = .error err) :
    Undone s (startHolepunch env cfg s).2 := by
  have hstopped := stopped_of_startServerGroupWithSrflx env cfg
    (if cfg.numPeerConnections ≤ 0 then 1 else cfg.numPeerConnections).toNat stunRetryMax 1
  rw [startHolepunch] at h ⊢
  cases hkey : env.readObfsKey with
  | error err => exact Undone.refl s
  | ok obfsKey =>
    rw [hkey] at h
    dsimp only at h ⊢
    generalize startServerGroupWithSrflx env cfg _ stunRetryMax 1 = r at h hstopped ⊢
    obtain ⟨result, stopped⟩ := r
    cases result with
    | error err => exact undone_of_stopped s hstopped
    | ok started =>
      obtain ⟨wrtcGroup, sdpOffers⟩ := started
      dsimp only at h ⊢
      split at h
      case h_1 =>
        refine undone_of_stopped s fun group hg => ?_
        rcases mem_append.mp hg with hold | hlast
        · exact hstopped group hold
        · rw [mem_singleton.mp hlast]
          exact stopped_stop wrtcGroup
      case h_2 => cases h

/-- The start of xray fails when some of its features run already. -/
def HalfStarts (cfg : ServerConfig) (s : State) : Prop :=
  s.xrayInstance = none ∧ ∃ configJSON err, serverConfigJSON env cfg = .ok configJSON ∧
    env.loadJSONConfig configJSON = none ∧ env.newInstance configJSON = none ∧
    env.startInstance configJSON = some (err, true)

theorem startXray_error {configJSON : String} (h : (startXray env configJSON s).1 = some err) :
    (Undone s (startXray env configJSON s).2 ↔
      ¬ (s.xrayInstance = none ∧ env.loadJSONConfig configJSON = none ∧
        env.newInstance configJSON = none ∧
        ∃ err, env.startInstance configJSON = some (err, true))) ∧
    Keeps s (startXray env configJSON s).2 ∧
    (startXray env configJSON s).2.leases = s.leases := by
  have hsame := (Undone.refl s).toKeeps
  rw [startXray] at h ⊢
  by_cases hinst : s.xrayInstance.isSome = true
  case pos =>
    have hsome : s.xrayInstance ≠ none := Option.isSome_iff_ne_none.mp hinst
    rw [if_pos hinst]
    exact ⟨iff_of_true (Undone.refl s) fun hall => hsome hall.1, hsame, rfl⟩
  case neg =>
    have hnone : s.xrayInstance = none := Option.not_isSome_iff_eq_none.mp hinst
    rw [if_neg hinst] at h ⊢
    cases hload : env.loadJSONConfig configJSON with
    | some err =>
      exact ⟨iff_of_true (Undone.refl s) (fun hall => by cases hall.2.1), hsame, rfl⟩
    | none =>
      rw [hload] at h
      cases hnew : env.newInstance configJSON with
      | some err =>
        exact ⟨iff_of_true (Undone.refl s) (fun hall => by cases hall.2.2.1), hsame, rfl⟩
      | none =>
        rw [hnew] at h
        cases hstart : env.startInstance configJSON with
        | none => rw [hstart] at h; cases h
        | some failure =>
          obtain ⟨err, running⟩ := failure
          refine ⟨?_, { hsame with }, rfl⟩
          cases running with
          | true =>
            -- the instance runs on, and nobody has it
            refine iff_of_false (fun hundone => ?_)
              fun hall => hall ⟨hnone, rfl, rfl, err, rfl⟩
            have hlen := congrArg length hundone.runningInstances
            simp at hlen
          | false =>
            refine iff_of_true { Undone.refl s with } ?_
            rintro ⟨-, -, -, err', herr⟩
            cases herr

theorem startPortMapped_error {m : Mapping} (h : (startPortMapped env cfg m s).1 = .error err) :
    (Undone s (startPortMapped env cfg m s).2 ↔ ¬ HalfStarts env cfg s) ∧
      Keeps s (startPortMapped env cfg m s).2 ∧
      (startPortMapped env cfg m s).2.leases = s.leases := by
  rw [startPortMapped] at h ⊢
  cases hbuild : serverConfigJSON env cfg with
  | error err =>
    refine ⟨iff_of_true (Undone.refl s) ?_, (Undone.refl s).toKeeps, rfl⟩
    rintro ⟨-, configJSON, err', hok, -⟩
    rw [hbuild] at hok
    cases hok
  | ok configJSON =>
    rw [hbuild] at h
    dsimp only at h ⊢
    have hhalf : HalfStarts env cfg s ↔ s.xrayInstance = none ∧
        env.loadJSONConfig configJSON = none ∧ env.newInstance configJSON = none ∧
        ∃ err, env.startInstance configJSON = some (err, true) := by
      constructor
      · rintro ⟨hnone, json, err', hok, hload, hnew, hstart⟩
        rw [hbuild] at hok
        cases hok
        exact ⟨hnone, hload, hnew, err', hstart⟩
      · rintro ⟨hnone, hload, hnew, err', hstart⟩
        exact ⟨hnone, configJSON, err', hbuild, hload, hnew, hstart⟩
    cases hxray : startXray env configJSON s with
    | mk failed t =>
      rw [hxray] at h
      cases failed with
      | none => cases h
      | some err' =>
        have hspec := startXray_error env (congrArg Prod.fst hxray)
        rw [hxray] at hspec
        rw [hhalf]
        exact hspec

/-! ## The two causes -/

/-- UPnP grants a mapping to a server that asks for one. -/
def MapsByUPnP (cfg : ServerConfig) : Prop :=
  cfg.natMethod ≠ "holepunch" ∧ env.gateway.GrantsUPnP cfg.upnpOptions

/-- NAT-PMP or PCP grants a mapping to a server that asks for one, and the start of xray fails
halfway. -/
def HalfStartsMapped (cfg : ServerConfig) (s : State) : Prop :=
  cfg.natMethod ≠ "holepunch" ∧
    env.gateway.GrantsOther cfg.listenPort cfg.listenPort cfg.upnpProto (pmpLifetimeOf 0) ∧
    HalfStarts env cfg s

theorem traverseNAT_undone_iff (h : (traverseNAT env cfg s).1 = .error err) :
    Undone s (traverseNAT env cfg s).2 ↔ ¬ MapsByUPnP env cfg ∧ ¬ HalfStartsMapped env cfg s := by
  rw [traverseNAT] at h ⊢
  by_cases hmethod : cfg.natMethod = "holepunch"
  case pos =>
    rw [if_pos hmethod] at h ⊢
    exact iff_of_true (startHolepunch_undone env h)
      ⟨fun hall => hall.1 hmethod, fun hall => hall.1 hmethod⟩
  case neg =>
    rw [if_neg hmethod] at h ⊢
    rcases tryPortMapping_spec env.gateway cfg.listenPort cfg.listenPort cfg.upnpProto
      cfg.upnpOptions 0 s.leases with
      ⟨hgrants, m, client, localIP, leaseDuration, heq⟩ | ⟨hgrants, r, hother, heq⟩
    case inl =>
      -- the lease is there, whatever happens to xray
      rw [heq] at h ⊢
      refine iff_of_false (fun hundone => ?_) fun hall => hall.1 ⟨hmethod, hgrants⟩
      have hlen := congrArg length hundone.activeLeases
      dsimp only at hlen
      rw [(startPortMapped_error env h).2.2] at hlen
      simp [Leases.add] at hlen
    case inr =>
      rw [heq] at h ⊢
      cases r with
      | error err' =>
        have hnone : ¬ HalfStartsMapped env cfg s := fun hall => by
          obtain ⟨m, hm⟩ := hother.mpr hall.2.1
          cases hm
        refine iff_of_true ?_ ⟨fun hall => hgrants hall.2, hnone⟩
        dsimp only at h ⊢
        by_cases hupnp : cfg.natMethod = "upnp"
        case pos =>
          rw [if_pos hupnp]
          exact Undone.refl s
        case neg =>
          rw [if_neg hupnp] at h ⊢
          exact startHolepunch_undone env h
      | ok m =>
        dsimp only at h ⊢
        rw [(startPortMapped_error env h).1]
        constructor
        · exact fun hno => ⟨fun hall => hgrants hall.2, fun hall => hno hall.2.2⟩
        · exact fun hno hstarts => hno.2 ⟨hmethod, hother.mp ⟨m, rfl⟩, hstarts⟩

/-- **When a failed `StartServer` leaves nothing behind.** -/
theorem startServer_undone_iff (settingsJSON : String) (s : State) (err : String)
    (h : (startServer env settingsJSON s).1 = .error err) :
    Undone s (startServer env settingsJSON s).2 ↔
      ∀ cfg, s.serverRunning = false → loadSettings env settingsJSON = .ok cfg →
        ¬ MapsByUPnP env cfg ∧ ¬ HalfStartsMapped env cfg s := by
  rw [startServer] at h ⊢
  by_cases hrunning : s.serverRunning = true
  case pos =>
    rw [if_pos hrunning]
    refine iff_of_true (Undone.refl s) fun cfg hstopped => ?_
    rw [hrunning] at hstopped
    cases hstopped
  case neg =>
    rw [if_neg hrunning] at h ⊢
    cases hload : loadSettings env settingsJSON with
    | error err' => exact iff_of_true (Undone.refl s) fun cfg _ hok => by cases hok
    | ok cfg =>
      rw [hload] at h
      rw [traverseNAT_undone_iff env h]
      constructor
      · intro hno cfg' _ hok
        cases hok
        exact hno
      · exact fun hall => hall cfg (Bool.eq_false_iff.mpr hrunning) rfl

/-- A network with these gateway clients, where xray and posts fail. -/
def demoEnv (clients : List IGDClient) : Env where
  gateway :=
    { discoverUPnPClients := fun _ => .ok clients
      getLocalIP := .ok "192.168.1.2"
      isPrivateIP := fun _ => false
      randomPort := fun _ _ => 20000
      tryNATPMP := fun _ _ _ _ => .error "timeout"
      tryPCP := fun _ _ _ _ => .error "timeout" }
  unmarshal := fun _ cfg => .ok { cfg with signalingURL := "http://192.0.2.1:5601" }
  normalizeHTTPBase := .ok
  generateUUID := fun _ => "uuid"
  buildProxySettingsJSON := fun _ => "settings"
  buildServerConfig := fun _ _ _ _ => .ok "config"
  loadJSONConfig := fun _ => none
  newInstance := fun _ => none
  startInstance := fun _ => some ("address already in use", false)
  readObfsKey := .ok "key"
  deriveRelayAddr := fun _ => ""
  startPeer := fun _ _ _ => .ok "typ srflx"
  postSDPOffers := fun _ _ _ => some "connection refused"

theorem startServer_undone_iff_noGateway :
    (startServer (demoEnv []) "settings" {}).1 = .error "post SDP offers: connection refused" ∧
      (Undone {} (startServer (demoEnv []) "settings" {}).2 ↔
        ∀ cfg, ({} : State).serverRunning = false →
          loadSettings (demoEnv []) "settings" = .ok cfg →
          ¬ MapsByUPnP (demoEnv []) cfg ∧ ¬ HalfStartsMapped (demoEnv []) cfg {}) :=
  ⟨by decide, startServer_undone_iff (demoEnv []) "settings" {}
    "post SDP offers: connection refused" (by decide)⟩

def grantingClient : IGDClient := ⟨.ok "203.0.113.7", fun _ => none, none⟩

theorem xrayFails_leaseStays :
    startServer (demoEnv [grantingClient]) "settings" {} =
        (.error "start xray: start: address already in use",
          { leases :=
              { activeLeases := [⟨10853, "TCP", 0, 0⟩]
                renewals := [⟨⟨10853, "TCP", 0, 0⟩, 10853, "192.168.1.2", 3600⟩]
                stopChs := 1 }
            nInstances := 1 }) ∧
      ¬ Undone {} (startServer (demoEnv [grantingClient]) "settings" {}).2 := by
  have hresult : (startServer (demoEnv [grantingClient]) "settings" {}).2.leases.activeLeases =
      [⟨10853, "TCP", 0, 0⟩] := by decide
  refine ⟨by decide, fun hundone => ?_⟩
  have hlease := hundone.activeLeases
  rw [hresult] at hlease
  cases hlease

/-! ## The step of the accept loop's model -/

theorem startServer_keeps {settingsJSON : String}
    (h : (startServer env settingsJSON s).1 = .error err) :
    Keeps s (startServer env settingsJSON s).2 := by
  have hsame := (Undone.refl s).toKeeps
  rw [startServer] at h ⊢
  by_cases hrunning : s.serverRunning = true
  case pos =>
    rw [if_pos hrunning]
    exact hsame
  case neg =>
    rw [if_neg hrunning] at h ⊢
    cases hload : loadSettings env settingsJSON with
    | error err' => exact hsame
    | ok cfg =>
      rw [hload] at h
      dsimp only at h ⊢
      rw [traverseNAT] at h ⊢
      split at h
      case isTrue hmethod =>
        rw [if_pos hmethod]
        exact (startHolepunch_undone env h).toKeeps
      case isFalse hmethod =>
        rw [if_neg hmethod]
        generalize tryPortMapping env.gateway cfg.listenPort cfg.listenPort cfg.upnpProto
          cfg.upnpOptions 0 s.leases = r at h ⊢
        obtain ⟨result, leases⟩ := r
        cases result with
        | ok m => exact { (startPortMapped_error env h).2.1 with }
        | error err' =>
          dsimp only at h ⊢
          split at h
          case isTrue hupnp =>
            rw [if_pos hupnp]
            exact { hsame with }
          case isFalse hupnp =>
            rw [if_neg hupnp]
            exact { (startHolepunch_undone env h).toKeeps with }

def methodOf (method : String) : AcceptLoop.Method :=
  if method = "" then .unset else if method = "holepunch" then .holepunch else .portMapped

theorem methodOf_name (method : MapMethod) : methodOf method.name = .portMapped := by
  cases method <;> decide

/-- The accept loop's model has the same globals and the same active group. -/
structure Shows (s : State) (a : AcceptLoop.State) : Prop where
  serverRunning : a.serverRunning = s.serverRunning
  serverMethod : a.serverMethod = methodOf s.serverMethod
  serverCancel : a.serverCancel = s.serverCancel
  activeWebRTCServerGroup : Option.Rel (fun g i => s.groups[i]? = some (a.groups g))
    a.activeWebRTCServerGroup s.activeWebRTCServerGroup
  started : a.started = s.nLoops

theorem Shows.active_append (hs : Shows s a)
    (more : List ServerGroup) : Option.Rel (fun g i => (s.groups ++ more)[i]? = some (a.groups g))
      a.activeWebRTCServerGroup s.activeWebRTCServerGroup := by
  have hactive := hs.activeWebRTCServerGroup
  generalize a.activeWebRTCServerGroup = x at hactive ⊢
  generalize s.activeWebRTCServerGroup = y at hactive ⊢
  cases hactive with
  | none => exact .none
  | some h => exact .some (NatProxy.Lib.getElem?_eq_of_isPrefix (prefix_append _ more) h)

theorem Shows.keeps {t : State} (hs : Shows s a) (h : Keeps s t) :
    Shows t a := by
  obtain ⟨stopped, hgroups, -⟩ := h.groups
  refine ⟨hs.serverRunning.trans h.serverRunning.symm, ?_,
    hs.serverCancel.trans h.serverCancel.symm, ?_, hs.started.trans h.nLoops.symm⟩
  · rw [h.serverMethod]
    exact hs.serverMethod
  · rw [hgroups, h.activeWebRTCServerGroup]
    exact hs.active_append stopped

theorem startServers_ok {start : Nat → Except String String} {i : Nat} {servers : ServerGroup}
    {offers sdps : List String} (h : startServers start left i servers offers = (.ok sdps, group)) :
    group = servers ++ replicate left ({} : WebRTC.Group.Server) := by
  induction left generalizing i servers offers with
  | zero =>
    rw [startServers] at h
    cases h
    rw [replicate_zero, append_nil]
  | succ left ih =>
    rw [startServers] at h
    split at h
    case h_1 => cases h
    case h_2 =>
      refine (ih h).trans ?_
      rw [replicate_succ, append_assoc, singleton_append]

theorem startServerGroupWithSrflx_ok {npc attempt : Nat} {sdps : List String}
    (h : (startServerGroupWithSrflx env cfg npc left attempt).1 = .ok (group, sdps)) :
    group = startServerGroup npc := by
  induction left generalizing attempt with
  | zero => rw [startServerGroupWithSrflx] at h; cases h
  | succ left ih =>
    rw [startServerGroupWithSrflx] at h
    split at h
    case h_1 => cases h
    case h_2 made hstart =>
      split at h
      case isTrue =>
        cases h
        rw [startServers_ok hstart, nil_append]
        rfl
      case isFalse => exact ih h

theorem Shows.startHolepunch {info : ConnectionInfo} (hs : Shows s a)
    (h : (startHolepunch env cfg s).1 = .ok info) :
    ∃ npc, Shows (startHolepunch env cfg s).2 (a.startHolepunch npc) := by
  rw [Start.startHolepunch] at h ⊢
  cases hkey : env.readObfsKey with
  | error err => rw [hkey] at h; cases h
  | ok obfsKey =>
    rw [hkey] at h
    dsimp only at h ⊢
    have hpos : (if cfg.numPeerConnections ≤ 0 then 1 else cfg.numPeerConnections).toNat ≠ 0 := by
      split <;> omega
    generalize (if cfg.numPeerConnections ≤ 0 then 1 else cfg.numPeerConnections) = npc
      at h hpos ⊢
    cases hstart : startServerGroupWithSrflx env cfg npc.toNat stunRetryMax 1 with
    | mk result stopped =>
      rw [hstart] at h
      cases result with
      | error err => cases h
      | ok started =>
        obtain ⟨wrtcGroup, sdpOffers⟩ := started
        have hgroup := startServerGroupWithSrflx_ok env (congrArg Prod.fst hstart)
        dsimp only at h ⊢
        split at h
        case h_1 => cases h
        case h_2 =>
          refine ⟨npc.toNat, rfl, rfl, congrArg some hs.started, .some ?_,
            congrArg (· + 1) hs.started⟩
          rw [AcceptLoop.startHolepunch_groups_self, if_neg hpos, hgroup,
            ← append_assoc, ← length_append, getElem?_concat_length]

theorem Shows.startPortMapped {m : Mapping} {info : ConnectionInfo} (hs : Shows s a)
    (h : (startPortMapped env cfg m s).1 = .ok info) :
    Shows (startPortMapped env cfg m s).2 a.startPortMapped := by
  rw [Start.startPortMapped] at h ⊢
  cases hbuild : serverConfigJSON env cfg with
  | error err => rw [hbuild] at h; cases h
  | ok configJSON =>
    rw [hbuild] at h
    dsimp only at h ⊢
    cases hxray : startXray env configJSON s with
    | mk failed t =>
      rw [hxray] at h
      cases failed with
      | some err => cases h
      | none =>
        -- a start that succeeds changes nothing but the instance
        have hsame : t.serverCancel = s.serverCancel ∧ t.groups = s.groups ∧
            t.activeWebRTCServerGroup = s.activeWebRTCServerGroup ∧
            t.nLoops = s.nLoops := by
          rw [startXray] at hxray
          split at hxray
          · cases hxray
          · grind
        obtain ⟨hcancel, hgroups, hactive, hloops⟩ := hsame
        refine ⟨rfl, (methodOf_name m.method).symm, hs.serverCancel.trans hcancel.symm, ?_,
          hs.started.trans hloops.symm⟩
        dsimp only
        rw [hgroups, hactive]
        exact hs.activeWebRTCServerGroup

/-- **`StartServer` and the accept loop's model.** A failed call leaves what that model sees, a
successful one is one of its start steps. -/
theorem startServer_refines (pion : Pion) (settingsJSON : String)
    (hs : Shows s a) :
    match startServer env settingsJSON s with
    | (.error _, t) => Shows t a
    | (.ok _, t) => ∃ act b, AcceptLoop.step pion a act = some b ∧ Shows t b ∧
        (act = .startPortMapped ∨ ∃ npc, act = .startHolepunch npc) := by
  cases hcall : startServer env settingsJSON s with
  | mk result t =>
    cases result with
    | error err =>
      have hkeeps := startServer_keeps env (congrArg Prod.fst hcall)
      rw [hcall] at hkeeps
      exact hs.keeps hkeeps
    | ok info =>
      dsimp only
      rw [startServer] at hcall
      split at hcall
      · cases hcall
      rename_i hrunning
      have hstep : a.serverRunning = false :=
        hs.serverRunning.trans (Bool.eq_false_iff.mpr hrunning)
      have hholepunch : ∀ cfg leases,
          startHolepunch env cfg { s with leases := leases } = (.ok info, t) →
          ∃ act b, AcceptLoop.step pion a act = some b ∧ Shows t b ∧
            (act = .startPortMapped ∨ ∃ npc, act = .startHolepunch npc) := by
        intro cfg leases heq
        have hs' : Shows { s with leases := leases } a := { hs with }
        obtain ⟨npc, hshows⟩ := hs'.startHolepunch env (congrArg Prod.fst heq)
        rw [heq] at hshows
        refine ⟨.startHolepunch npc, _, ?_, hshows, .inr ⟨npc, rfl⟩⟩
        rw [AcceptLoop.step, hstep, if_neg Bool.false_ne_true]
      split at hcall
      · cases hcall
      rename_i cfg hload
      rw [traverseNAT] at hcall
      split at hcall
      case isTrue => exact hholepunch cfg s.leases hcall
      split at hcall
      case h_1 m leases hmap =>
        have hs' : Shows { s with leases := leases } a := { hs with }
        have hshows := hs'.startPortMapped env (congrArg Prod.fst hcall)
        rw [hcall] at hshows
        refine ⟨.startPortMapped, _, ?_, hshows, .inl rfl⟩
        rw [AcceptLoop.step, hstep, if_neg Bool.false_ne_true]
      case h_2 err leases hmap =>
        split at hcall
        · cases hcall
        · exact hholepunch cfg leases hcall

/-- A network without a gateway, where the offers are posted. -/
def openEnv : Env := { demoEnv [] with postSDPOffers := fun _ _ _ => none }

theorem startServer_refines_started :
    (startServer openEnv "settings" {}).2.groups = [[{}]] ∧
      ∃ act b, AcceptLoop.step demoPion {} act = some b ∧
        Shows (startServer openEnv "settings" {}).2 b ∧
        (act = .startPortMapped ∨ ∃ npc, act = .startHolepunch npc) :=
  ⟨by decide, startServer_refines (s := {}) (a := {}) openEnv demoPion "settings"
    ⟨rfl, rfl, rfl, .none, rfl⟩⟩

end NatProxy.Server.Start
