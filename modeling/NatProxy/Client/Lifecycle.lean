import NatProxy.Lib.Transition

/-!
# The life of a client connection

Model of the client part of `golib/api.go`: `StartClient` (with `startClientWebRTC` and
`startClientXray`), `ConnectWebRTC`, `ProcessManualOffer`, `StartTunnel`, `StopClient` and
`attemptFastReconnect`. They share the globals behind `mu` and drop the mutex while they do slow
networking. A section under the mutex is one step, and so is each stretch of networking between two
looks at the shared state. Any number of calls run interleaved.

What a call creates is named after the call. The context that the call `i` gets from
`context.WithCancel` is `i`, its tunnel is `i`, and the client groups it starts are `⟨i, 0⟩`, `⟨i,
1⟩`, ... (the refresh loop may start several). A networking step may fail at any time
(`Choice.fail`), and ends with the check of `ctx.Err()`.

A call that is refused at its start changes nothing and is no step. The saved connection parameters,
the callbacks for a changed network and the health monitor, except for its reset of
`reconnectCount`, are left out. `origin`, `taken` and `installed` record what happened; only a
reconnect needs an installed connection.
-/

namespace NatProxy.Client

open Lib Function

def maxReconnects : Nat := 2

/-- The call that started it, and how many it had started before. -/
structure GroupId where
  owner : Nat
  index : Nat
deriving DecidableEq, Repr

/-- A `fastReconnect` belongs to the connection whose group reported the ICE failure, named after
the call that installed it. -/
inductive Kind where
  | startWebRTC
  | startXray
  | connectWebRTC
  | manualOffer
  | startTunnel
  | fastReconnect (conn : Nat)
deriving DecidableEq, Repr

/-- The calls that look at `ctx.Err()` of the connect context. -/
def Kind.checksCtx : Kind → Bool
  | .startWebRTC | .connectWebRTC => true
  | .startXray | .manualOffer | .startTunnel | .fastReconnect _ => false

inductive PC where
  /-- parse the settings and the connection code -/
  | started
  /-- get the offers, or start xray -/
  | dialing
  /-- start the client group -/
  | offered
  /-- check the context, look for refreshed offers -/
  | grouped
  /-- post or encode the answers -/
  | answering
  /-- wait for the connection, or protect the sockets -/
  | waiting
  /-- publish the group, create the tunnel, or swap the dialer -/
  | connected
  /-- install the tunnel -/
  | tunnelled
  /-- stop what may not be installed -/
  | refused
  /-- run the deferred cleanup -/
  | failed
  /-- reset `clientConnecting` after a failed `StartTunnel`, or call `StopClient` -/
  | stopping
  /-- look at the reconnect limit again -/
  | limit
  /-- stop the group that was swapped out -/
  | swapped
  | done
deriving DecidableEq, Repr

/-- `group` is what the call still has to publish, install or stop; `ctx` the context that it looks
at; `origin` the attempt that it works for. -/
structure Call where
  kind : Kind := .connectWebRTC
  pc : PC := .done
  ctx : Nat := 0
  groups : Nat := 0
  group : Option GroupId := none
  tunnel : Bool := false
  oldGroup : Option GroupId := none
  origin : Nat := 0
  taken : Option GroupId := none
  installed : Bool := false
deriving DecidableEq, Repr

structure Globals where
  clientRunning : Bool := false
  clientConnecting : Bool := false
  clientConnectCtx : Option Nat := none
  clientConnectCancel : Option Nat := none
  pendingGroup : Option GroupId := none
  activeGroup : Option GroupId := none
  activeTunnel : Option Nat := none
  reconnectCount : Nat := 0

structure State extends Globals where
  ctxCancelled : Nat → Bool := fun _ => false
  groupStopped : GroupId → Bool := fun _ => false
  tunnelStopped : Nat → Bool := fun _ => false
  dialStream : Nat → Option GroupId := fun _ => none
  xrayRunning : Bool := false
  calls : Nat → Call := fun _ => {}
  nCalls : Nat := 0

/-! ## Parts of the steps -/

def State.setCall (s : State) (i : Nat) (c : Call) : State :=
  { s with calls := update s.calls i c }

def State.goto (s : State) (i : Nat) (pc : PC) : State :=
  s.setCall i { s.calls i with pc := pc }

def State.stopGroup (s : State) : Option GroupId → State
  | none => s
  | some g => { s with groupStopped := update s.groupStopped g true }

def State.stopTunnel (s : State) : Option Nat → State
  | none => s
  | some t => { s with tunnelStopped := update s.tunnelStopped t true }

def State.cancelConnect (s : State) : State :=
  match s.clientConnectCancel with
  | none => s
  | some x =>
    { s with clientConnectCancel := none, ctxCancelled := update s.ctxCancelled x true }

def State.stopPending (s : State) : State :=
  { s.stopGroup s.pendingGroup with pendingGroup := none }

/-- Where a call goes when one of its steps fails. -/
def Kind.failPC : Kind → PC
  | .startWebRTC | .startXray | .connectWebRTC | .manualOffer => .failed
  | .startTunnel | .fastReconnect _ => .stopping

/-- A step of a call fails: it stops the group it holds, if any. -/
def State.abort (s : State) (i : Nat) : State :=
  let c := s.calls i
  (s.stopGroup c.group).setCall i { c with pc := c.kind.failPC, group := none }

/-- The call looks at its context and finds it cancelled. -/
def State.seesCancel (s : State) (i : Nat) : Bool :=
  (s.calls i).kind.checksCtx && s.ctxCancelled (s.calls i).ctx

/-! ## `StopClient` -/

/-- The first half of `StopClient`: cancel a connect attempt. -/
def State.cancelMidConnect (s : State) : State :=
  if s.clientConnecting then { s.cancelConnect.stopPending with clientConnecting := false } else s

/-- Stop the engine and reset the globals. If `xray.StopXray` fails, `StopClient` returns before
`clientRunning` is reset. -/
def State.stopEngine (s : State) (xrayOk : Bool) : State :=
  match s.activeGroup with
  | some g =>
    { (s.stopGroup (some g)).cancelConnect with
      activeGroup := none, clientRunning := false, reconnectCount := 0 }
  | none =>
    if s.xrayRunning = true ∧ xrayOk = false then { s with xrayRunning := false }
    else
      { s.cancelConnect with clientRunning := false, reconnectCount := 0, xrayRunning := false }

/-- The second half of `StopClient`: stop a running client, the tunnel first. -/
def State.stopRunning (s : State) (xrayOk : Bool) : State :=
  if s.clientRunning = false then s
  else State.stopEngine { s.stopTunnel s.activeTunnel with activeTunnel := none } xrayOk

def State.stopClient (s : State) (xrayOk : Bool) : State :=
  s.cancelMidConnect.stopRunning xrayOk

/-! ## Sections under the mutex -/

def State.enter (s : State) (c : Call) : State :=
  { s.setCall s.nCalls c with nCalls := s.nCalls + 1 }

/-- The first section of `StartClient`, `ConnectWebRTC` and `ProcessManualOffer`. -/
def State.beginAttempt (s : State) (k : Kind) : State :=
  { s.enter { kind := k, pc := .started, ctx := s.nCalls, origin := s.nCalls } with
    clientConnecting := true
    clientConnectCtx := some s.nCalls
    clientConnectCancel := some s.nCalls }

/-- The first section of `StartTunnel`, which takes the pending group. -/
def State.takePending (s : State) (g : GroupId) : State :=
  { s.enter
      { kind := .startTunnel, pc := .waiting, group := some g, origin := g.owner,
        taken := some g } with
    pendingGroup := none }

/-- The first section of `attemptFastReconnect`, below the limit. -/
def State.beginReconnect (s : State) (conn : Nat) : State :=
  { s.enter
      { kind := .fastReconnect conn, pc := .dialing, origin := s.nCalls,
        oldGroup := s.activeGroup } with
    reconnectCount := s.reconnectCount + 1 }

def State.begin (s : State) (k : Kind) : Option State :=
  match k with
  | .startTunnel =>
    -- otherwise "no pending WebRTC connection"
    match s.clientConnecting, s.pendingGroup with
    | true, some g => some (s.takePending g)
    | _, _ => none
  | .fastReconnect conn =>
    -- the callback is set on the client groups of installed connections
    if (s.calls conn).installed = false ∨ (s.calls conn).kind = .startXray then none
    else if s.clientRunning = false ∨ maxReconnects ≤ s.reconnectCount then
      some (s.enter { kind := k, pc := .limit, origin := s.nCalls })
    else some (s.beginReconnect conn)
  | .startWebRTC | .startXray | .connectWebRTC | .manualOffer =>
    if s.clientRunning = true ∨ s.clientConnecting = true then none else some (s.beginAttempt k)

/-- The last section of `ConnectWebRTC` and `ProcessManualOffer`. -/
def State.publish (s : State) (i : Nat) : State :=
  { s.setCall i { s.calls i with pc := .done, group := none } with
    pendingGroup := (s.calls i).group }

/-- The new tunnel becomes the active one. The xray path leaves `activeWebRTCClientGroup` alone. -/
def State.install (s : State) (i : Nat) : State :=
  let c := s.calls i
  { s.setCall i { c with pc := .done, group := none, installed := true } with
    activeTunnel := some i
    activeGroup := if c.kind = .startXray then s.activeGroup else c.group
    clientConnecting := false
    clientRunning := true }

/-- The check before `install`: the context, the flag, or nothing. -/
def State.mayInstall (s : State) (i : Nat) : Bool :=
  match (s.calls i).kind with
  | .startWebRTC => !s.ctxCancelled (s.calls i).ctx
  | .startXray => s.clientConnecting
  | _ => true

/-- The deferred cleanup of a failed attempt. `StartClient` leaves the pending group alone. -/
def State.cleanup (s : State) : Kind → State
  | .connectWebRTC | .manualOffer => { s.stopPending.cancelConnect with clientConnecting := false }
  | _ => { s.cancelConnect with clientConnecting := false }

/-- The last section of `attemptFastReconnect`. -/
def State.swapDialStream (s : State) (i : Nat) : State :=
  let c := s.calls i
  match s.clientRunning, s.activeTunnel with
  | true, some t =>
    { s.setCall i { c with pc := .swapped, group := none } with
      activeGroup := c.group
      dialStream := update s.dialStream t c.group }
  | _, _ => s.goto i .refused

/-! ## Steps without the mutex -/

inductive Choice where
  | ok
  | fail
  | refresh
deriving DecidableEq, Repr

/-- The steps that change nothing but the call itself and what it holds. -/
def State.localStep (s : State) (i : Nat) (ch : Choice) : Option State :=
  let c := s.calls i
  match c.pc with
  | .started =>
    if ch = .fail then some (s.abort i)
    else
      match c.kind with
      -- `StartClient` reads the global context without the mutex
      | .startWebRTC =>
        s.clientConnectCtx.map fun x => s.setCall i { c with pc := .dialing, ctx := x }
      | .startXray =>
        if s.clientConnecting = true then some (s.goto i .dialing) else some (s.abort i)
      | .manualOffer => some (s.goto i .offered)
      | _ => some (s.goto i .dialing)
  | .dialing =>
    if ch = .fail then some (s.abort i)
    else if c.kind = .startXray then
      -- `xray.StartXray` refuses a second instance
      if s.xrayRunning = true then some (s.abort i)
      else some { s.goto i .connected with xrayRunning := true }
    else if s.seesCancel i = true then some (s.abort i)
    else some (s.goto i .offered)
  | .offered =>
    if ch = .fail then some (s.abort i)
    else
      -- `StartClientGroup`; only the calls with a context look at it afterwards
      some (s.setCall i { c with
        pc := if c.kind.checksCtx = true then .grouped else .answering
        group := some ⟨i, c.groups⟩
        groups := c.groups + 1 })
  | .grouped =>
    if s.seesCancel i = true then some (s.abort i)
    else if ch = .refresh then
      -- newer offers have arrived: stop the group and start over
      some ((s.stopGroup c.group).setCall i { c with pc := .offered, group := none })
    else some (s.goto i .answering)
  | .answering =>
    if ch = .fail ∨ s.seesCancel i = true then some (s.abort i)
    else some (s.goto i (if c.kind = .manualOffer then .connected else .waiting))
  | .waiting =>
    if ch = .fail then some (s.abort i) else some (s.goto i .connected)
  | .connected =>
    -- `tunnel.StartTunnelWithOptions`
    if ch = .fail then
      if c.kind = .startXray then some { s.abort i with xrayRunning := false }
      else some (s.abort i)
    else
      some { s.setCall i { c with pc := .tunnelled, tunnel := true } with
        dialStream := update s.dialStream i c.group }
  | .refused =>
    match c.kind with
    -- a reconnect has no tunnel of its own
    | .fastReconnect _ =>
      some ((s.stopGroup c.group).setCall i { c with pc := .done, group := none })
    | .startXray => some { (s.stopTunnel (some i)).abort i with xrayRunning := false }
    | _ => some ((s.stopTunnel (some i)).abort i)
  | .limit =>
    some (s.goto i (if maxReconnects ≤ s.reconnectCount then .stopping else .done))
  | _ => none

def State.advance (s : State) (i : Nat) (ch : Choice) : Option State :=
  match (s.calls i).pc, (s.calls i).kind with
  | .connected, .connectWebRTC => some (s.publish i)
  | .connected, .manualOffer => some (s.publish i)
  | .connected, .fastReconnect _ => some (s.swapDialStream i)
  -- without a check for `StartTunnel`
  | .tunnelled, _ => some (if s.mayInstall i = true then s.install i else s.goto i .refused)
  | .failed, _ => some ((s.cleanup (s.calls i).kind).goto i .done)
  | .stopping, .fastReconnect _ => some ((s.stopClient (ch != .fail)).goto i .done)
  -- the failure section of `StartTunnel` leaves the context alone
  | .stopping, _ => some (State.goto { s with clientConnecting := false } i .done)
  | .swapped, _ =>
    -- `oldGroup.Stop()`, which does not return for a nil group
    match (s.calls i).oldGroup with
    | some g => some ((s.stopGroup (some g)).goto i .done)
    | none => none
  | .done, _ => none
  | _, _ => s.localStep i ch

/-- A call or `StopClient` is started, a call goes on, or a connection is found alive. -/
inductive Action where
  | begin (k : Kind)
  | stop (xrayOk : Bool)
  | advance (i : Nat) (ch : Choice)
  | monitor
deriving DecidableEq, Repr

def step (s : State) : Action → Option State
  | .begin k => s.begin k
  | .stop xrayOk => some (s.stopClient xrayOk)
  | .advance i ch => s.advance i ch
  | .monitor => some { s with reconnectCount := 0 }

abbrev Reachable (ok : State → Action → Prop) (s : State) : Prop := Reaches step ok {} s

def State.Unfinished (s : State) (i : Nat) : Prop := (s.calls i).pc ≠ .done

instance (s : State) (i : Nat) : Decidable (s.Unfinished i) := inferInstanceAs (Decidable (_ ≠ _))

end NatProxy.Client
