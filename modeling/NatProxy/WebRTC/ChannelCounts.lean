import Mathlib.Algebra.Ring.Nat
import Mathlib.Algebra.Ring.Int.Defs
import NatProxy.WebRTC.SyncedSettings

/-!
# How many data channels a group opens

`StartServerGroup` caps the number of peer connections, splits the requested data channels over them
(`distributeChannels`) and starts a server for each share. The server fills its options once more
(`applyServerDefaults`), where a share of 0 becomes the default of 6, and then creates its channels,
or a media track in the other transport mode (`golib/webrtc/group.go`, `golib/webrtc/server.go`).

The split is even and loses nothing. What is opened is what was requested exactly if the transport
is that of data channels and there are at least as many channels as connections (`opened_iff`): one
channel on two connections opens 7 (`oneOnTwo_opensSeven`).
-/

namespace NatProxy.WebRTC.ChannelCounts

open WebRTC.Group WebRTC.SyncedSettings List

/-! ## Starting a group -/

/-- The library's answers for the peer connection `pc`, with the text of an error. -/
structure Env where
  newPeerConnection : (pc : Nat) → Option String
  prepareMediaTrack : (pc : Nat) → Option String
  generateRandomDCLabel : (pc i : Nat) → String
  createDataChannel : (pc i : Nat) → Option String
  createOffer : (pc : Nat) → Option String
  setLocalDescription : (pc : Nat) → Option String

/-- The number of channels it waits for, and the labels of those created. -/
structure Server where
  numChannels : Int
  channels : List String
deriving DecidableEq, Repr

/-- The data channels from number `i` on, of which there are `left`. -/
def createDataChannels (env : Env) (pc : Nat) :
    Nat → Nat → List String → Except String (List String)
  | 0, _, labels => .ok labels
  | left + 1, i, labels =>
    let label := env.generateRandomDCLabel pc i
    match env.createDataChannel pc i with
    | some err => .error ("create data channel " ++ label ++ ": " ++ err)
    | none => createDataChannels env pc left (i + 1) (labels ++ [label])

/-- The media track or the data channels of a server. -/
def openTransport (env : Env) (pc : Nat) (o : Options) : Except String (List String) :=
  match o.transportMode with
  | .mediaStream =>
    match env.prepareMediaTrack pc with
    | some err => .error ("prepare media track: " ++ err)
    | none => .ok []
  | .dataChannels => createDataChannels env pc o.numChannels.toNat 0 []

def startServer (env : Env) (pc : Nat) (opts : Options) : Except String Server :=
  let o := applyServerDefaults opts
  match env.newPeerConnection pc with
  | some err => .error err
  | none =>
    match openTransport env pc o with
    | .error err => .error err
    | .ok channels =>
      match env.createOffer pc with
      | some err => .error ("create offer: " ++ err)
      | none =>
        match env.setLocalDescription pc with
        | some err => .error ("set local description: " ++ err)
        | none => .ok ⟨o.numChannels, channels⟩

/-- The peer connections from number `i` on; an error stops the servers so far. -/
def startServers (env : Env) (opts : Options) (channelDist : List Int) :
    Nat → Nat → List Server → Except String (List Server)
  | 0, _, servers => .ok servers
  | left + 1, i, servers =>
    match startServer env i { opts with numChannels := channelDist.getD i 0 } with
    | .error err => .error ("start server PC " ++ toString i ++ ": " ++ err)
    | .ok srv => startServers env opts channelDist left (i + 1) (servers ++ [srv])

def startServerGroup (env : Env) (npc : Int) (opts : Options) : Except String (List Server) :=
  let n := groupSize npc.toNat
  let totalChannels := orDefault opts.numChannels 6
  startServers env opts (distributeChannels totalChannels n) n 0 []

def opened (servers : List Server) : Nat := (servers.map fun srv => srv.channels.length).sum

/-! ## What a server creates -/

def created (opts : Options) : Nat :=
  match opts.transportMode with
  | .mediaStream => 0
  | .dataChannels => (applyServerDefaults opts).numChannels.toNat

section Starting

variable {env : Env} {opts : Options}

theorem created_of_mediaStream (h : opts.transportMode = .mediaStream) : created opts = 0 := by
  rw [created, h]

theorem created_of_dataChannels (h : opts.transportMode = .dataChannels) :
    created opts = (applyServerDefaults opts).numChannels.toNat := by
  rw [created, h]

theorem length_createDataChannels {pc left i : Nat} {labels channels : List String}
    (h : createDataChannels env pc left i labels = .ok channels) :
    channels.length = labels.length + left := by
  induction left generalizing i labels with
  | zero =>
    cases h
    rfl
  | succ left ih =>
    rw [createDataChannels] at h
    split at h
    · cases h
    · rw [ih h, length_append, length_singleton, Nat.add_assoc, Nat.add_comm 1]

theorem length_openTransport {pc : Nat} {channels : List String}
    (h : openTransport env pc (applyServerDefaults opts) = .ok channels) :
    channels.length = created opts := by
  -- the defaults keep the transport mode
  have hmode : (applyServerDefaults opts).transportMode = opts.transportMode := rfl
  rw [openTransport, hmode] at h
  cases hcase : opts.transportMode with
  | mediaStream =>
    grind [created_of_mediaStream]
  | dataChannels =>
    rw [hcase] at h
    rw [created_of_dataChannels hcase]
    exact (length_createDataChannels h).trans (Nat.zero_add _)

theorem startServer_spec {pc : Nat} {srv : Server} (h : startServer env pc opts = .ok srv) :
    srv.numChannels = (applyServerDefaults opts).numChannels ∧
      srv.channels.length = created opts := by
  rw [startServer] at h
  split at h
  · cases h
  · grind [length_openTransport]

theorem map_startServers {β : Type} {f : Server → β} {g : Options → β}
    (hone : ∀ pc o srv, startServer env pc o = .ok srv → f srv = g o) {channelDist : List Int}
    {left i : Nat} {servers group : List Server}
    (h : startServers env opts channelDist left i servers = .ok group) :
    group.map f = servers.map f ++ (range' i left).map fun j =>
      g { opts with numChannels := channelDist.getD j 0 } := by
  induction left generalizing i servers with
  | zero =>
    cases h
    exact (append_nil _).symm
  | succ left ih =>
    rw [startServers] at h
    split at h
    · cases h
    rename_i srv hstart
    rw [ih h, map_append, map_singleton, hone i _ srv hstart, range'_succ,
      map_cons, append_assoc, singleton_append]

end Starting

/-! ## Even shares -/

/-- The share of the connection `i` when `total` channels are split over `n`. -/
def share (total n i : Nat) : Nat := if i < total % n then total / n + 1 else total / n

theorem sum_range_ite {k n : Nat} (hk : k ≤ n) (a b : Nat) :
    ((range n).map fun i => if i < k then a else b).sum = k * a + (n - k) * b := by
  induction n, hk using Nat.le_induction with
  | base =>
    have hall : (range k).map (fun i => if i < k then a else b) =
        (range k).map fun _ => a :=
      map_congr_left fun i hi => if_pos (mem_range.mp hi)
    rw [hall, map_const', sum_replicate_nat, length_range, Nat.sub_self,
      Nat.zero_mul, Nat.add_zero]
  | succ n hle ih =>
    rw [range_succ, map_append, sum_append, ih, map_singleton,
      sum_singleton, if_neg (Nat.not_lt.mpr hle), Nat.succ_sub hle, Nat.succ_mul,
      Nat.add_assoc]

theorem sum_map_natCast (l : List Nat) (f : Nat → Nat) :
    (l.map fun i => (f i : Int)).sum = ((l.map f).sum : Nat) := by
  induction l with
  | nil => rfl
  | cons i l ih =>
    rw [map_cons, sum_cons, map_cons, sum_cons, ih, Int.natCast_add]

section Shares

variable {total n : Nat}

theorem split_total (total : Nat) (hn : 0 < n) :
    total % n * (total / n + 1) + (n - total % n) * (total / n) = total := by
  have hmod : total % n ≤ n := Nat.le_of_lt (Nat.mod_lt total hn)
  calc total % n * (total / n + 1) + (n - total % n) * (total / n)
      = (total % n + (n - total % n)) * (total / n) + total % n := by
        rw [Nat.mul_succ, Nat.add_mul, Nat.add_right_comm]
    _ = n * (total / n) + total % n := by rw [Nat.add_sub_cancel' hmod]
    _ = total := Nat.div_add_mod total n

theorem sum_share (hn : 0 < n) : ((range n).map (share total n)).sum = total :=
  (sum_range_ite (Nat.le_of_lt (Nat.mod_lt total hn)) _ _).trans (split_total total hn)

theorem share_bounds (total n i : Nat) :
    total / n ≤ share total n i ∧ share total n i ≤ total / n + 1 := by
  rw [share]
  split
  · exact ⟨Nat.le_succ _, Nat.le_refl _⟩
  · exact ⟨Nat.le_refl _, Nat.le_succ _⟩

/-- The number of channels that a share becomes when 0 stands for the default. -/
def filled (share : Nat) : Nat := if share = 0 then 6 else share

theorem filled_share (total n i : Nat) :
    filled (share total n i) = if i < total % n then total / n + 1 else filled (total / n) := by
  rw [share]
  split
  · exact if_neg (Nat.succ_ne_zero _)
  · rfl

theorem sum_filled_iff (hn : 0 < n) :
    ((range n).map fun i => filled (share total n i)).sum = total ↔ n ≤ total := by
  have hmod : total % n < n := Nat.mod_lt total hn
  have hsum : ((range n).map fun i => filled (share total n i)).sum =
      total % n * (total / n + 1) + (n - total % n) * filled (total / n) := by
    rw [← sum_range_ite (Nat.le_of_lt hmod)]
    exact congrArg sum (map_congr_left fun i _ => filled_share total n i)
  have hlast : 0 < n - total % n := Nat.sub_pos_of_lt hmod
  rw [hsum]
  constructor
  · intro h
    by_contra hfew
    have hzero : total / n = 0 := Nat.div_eq_of_lt (Nat.lt_of_not_le hfew)
    have hsplit := split_total total hn
    rw [hzero] at h hsplit
    have hsix : filled 0 = 6 := rfl
    rw [hsix] at h
    omega
  · intro hle
    have hpos : total / n ≠ 0 := Nat.ne_of_gt (Nat.div_pos hle hn)
    rw [filled, if_neg hpos]
    exact split_total total hn

end Shares

/-! ## The split of the code -/

section Split

variable {total n : Nat}

theorem distributeChannels_natCast (hn : 0 < n) :
    distributeChannels total n = (range n).map fun i => (share total n i : Int) := by
  have hpos : ¬ (n : Int) ≤ 0 := by omega
  -- the numbers of the connections are integers in the comparison
  have hcast : (do let i ← range n; pure (i : Int)) =
      (range n).map fun i : Nat => (i : Int) := map_eq_flatMap.symm
  rw [distributeChannels, if_neg hpos, Int.toNat_natCast, hcast, map_map]
  refine map_congr_left fun i _ => ?_
  rw [Function.comp_apply, ← Int.ofNat_tdiv, ← Int.ofNat_tmod, share]
  by_cases hi : i < total % n
  · rw [if_pos (Int.ofNat_lt.mpr hi), if_pos hi]
    rfl
  · rw [if_neg (mt Int.ofNat_lt.mp hi), if_neg hi, Int.add_zero]

/-- The counts sum to the total and differ by at most 1. -/
def EvenSplit (total : Int) (counts : List Int) : Prop :=
  counts.sum = total ∧ ∀ a ∈ counts, ∀ b ∈ counts, a ≤ b + 1

theorem evenSplit_distributeChannels (hn : 0 < n) :
    EvenSplit total (distributeChannels total n) := by
  rw [distributeChannels_natCast hn]
  constructor
  · rw [sum_map_natCast]
    exact congrArg Nat.cast (sum_share hn)
  · grind [mem_map.mp, share_bounds]

theorem created_share (opts : Options) {i : Nat} (hi : i < n)
    (hmode : opts.transportMode = .dataChannels) :
    created { opts with numChannels := (distributeChannels total n).getD i 0 } =
      filled (share total n i) := by
  have hn : 0 < n := Nat.zero_lt_of_lt hi
  have hget : (distributeChannels total n).getD i 0 = (share total n i : Int) := by
    rw [distributeChannels_natCast hn, getD_eq_getElem?_getD, getElem?_map,
      getElem?_range hi]
    rfl
  have hfilled : created { opts with numChannels := (share total n i : Int) } =
      (orDefault (share total n i) 6).toNat := created_of_dataChannels hmode
  rw [hget, hfilled, orDefault, filled]
  by_cases hzero : share total n i = 0
  · rw [if_pos hzero, hzero]
    rfl
  · rw [if_neg hzero, if_neg (mt Int.natCast_eq_zero.mp hzero)]
    rfl

end Split

/-! ## What is opened -/

/-- No call into the library reports an error. -/
structure Env.NoErrors (env : Env) : Prop where
  newPeerConnection : ∀ pc, env.newPeerConnection pc = none
  prepareMediaTrack : ∀ pc, env.prepareMediaTrack pc = none
  createDataChannel : ∀ pc i, env.createDataChannel pc i = none
  createOffer : ∀ pc, env.createOffer pc = none
  setLocalDescription : ∀ pc, env.setLocalDescription pc = none

section NoErrors

variable {env : Env}

theorem createDataChannels_ok (henv : env.NoErrors) (pc left i : Nat) (labels : List String) :
    ∃ channels, createDataChannels env pc left i labels = .ok channels := by
  induction left generalizing i labels with
  | zero => exact ⟨labels, rfl⟩
  | succ left ih =>
    rw [createDataChannels, henv.createDataChannel]
    exact ih (i + 1) _

theorem openTransport_ok (henv : env.NoErrors) (pc : Nat) (o : Options) :
    ∃ channels, openTransport env pc o = .ok channels := by
  rw [openTransport]
  cases o.transportMode with
  | mediaStream =>
    rw [henv.prepareMediaTrack]
    exact ⟨[], rfl⟩
  | dataChannels => exact createDataChannels_ok henv pc _ 0 []

theorem startServer_ok (henv : env.NoErrors) (pc : Nat) (opts : Options) :
    ∃ srv, startServer env pc opts = .ok srv := by
  obtain ⟨channels, hopen⟩ := openTransport_ok henv pc (applyServerDefaults opts)
  rw [startServer, henv.newPeerConnection, hopen, henv.createOffer, henv.setLocalDescription]
  exact ⟨_, rfl⟩

theorem startServers_ok (henv : env.NoErrors) (opts : Options) (channelDist : List Int)
    (left i : Nat) (servers : List Server) :
    ∃ group, startServers env opts channelDist left i servers = .ok group := by
  induction left generalizing i servers with
  | zero => exact ⟨servers, rfl⟩
  | succ left ih =>
    obtain ⟨srv, hstart⟩ :=
      startServer_ok henv i { opts with numChannels := channelDist.getD i 0 }
    rw [startServers, hstart]
    exact ih (i + 1) _

end NoErrors

theorem groupSize_eq {npc : Int} (h : 1 ≤ npc) : (groupSize npc.toNat : Int) = min npc 8 := by
  rw [groupSize, if_neg (by omega)]
  omega

section Opened

variable {env : Env} {npc : Int} {opts : Options} {servers : List Server} {total : Nat}

theorem opened_group (htotal : opts.numChannels = total) (hpos : 0 < total)
    (h : startServerGroup env npc opts = .ok servers) :
    opened servers = ((range (groupSize npc.toNat)).map fun i => created
      { opts with
        numChannels := (distributeChannels total (groupSize npc.toNat)).getD i 0 }).sum := by
  have hgiven : orDefault opts.numChannels 6 = total := by
    rw [orDefault, htotal, if_neg (by omega)]
  rw [startServerGroup, hgiven] at h
  rw [opened, map_startServers (fun _ _ _ hstart => (startServer_spec hstart).2) h,
    range_eq_range']
  rfl

theorem opened_of_mediaStream (htotal : opts.numChannels = total) (hpos : 0 < total)
    (hmode : opts.transportMode = .mediaStream)
    (h : startServerGroup env npc opts = .ok servers) : opened servers = 0 := by
  rw [opened_group htotal hpos h]
  refine List.sum_eq_zero_iff_forall_eq_nat.mpr fun count hcount => ?_
  obtain ⟨i, -, rfl⟩ := mem_map.mp hcount
  exact created_of_mediaStream hmode

theorem opened_of_dataChannels (htotal : opts.numChannels = total) (hpos : 0 < total)
    (hmode : opts.transportMode = .dataChannels)
    (h : startServerGroup env npc opts = .ok servers) :
    opened servers = ((range (groupSize npc.toNat)).map fun i =>
      filled (share total (groupSize npc.toNat) i)).sum := by
  rw [opened_group htotal hpos h]
  refine congrArg sum (map_congr_left fun i hi => ?_)
  exact created_share opts (mem_range.mp hi) hmode

end Opened

/-- **What is opened is what was requested, if there is a channel for each connection.** -/
theorem opened_iff (env : Env) (npc : Int) (opts : Options) (hnpc : 1 ≤ npc)
    (htotal : 1 ≤ opts.numChannels) :
    EvenSplit opts.numChannels (distributeChannels opts.numChannels npc) ∧
    EvenSplit opts.numChannels (distributeChannels opts.numChannels (min npc 8)) ∧
    (env.NoErrors → ∃ servers, startServerGroup env npc opts = .ok servers) ∧
    ∀ servers, startServerGroup env npc opts = .ok servers →
      ((opened servers : Int) = opts.numChannels ↔
        opts.transportMode = .dataChannels ∧ min npc 8 ≤ opts.numChannels) := by
  obtain ⟨total, ht⟩ := Int.eq_ofNat_of_zero_le (show 0 ≤ opts.numChannels by omega)
  obtain ⟨n, hn⟩ := Int.eq_ofNat_of_zero_le (show 0 ≤ npc by omega)
  have hsize : (groupSize npc.toNat : Int) = min npc 8 := groupSize_eq hnpc
  have hgroup : 0 < groupSize npc.toNat := by omega
  refine ⟨?_, ?_, fun henv => startServers_ok henv opts _ _ 0 [], fun servers h => ?_⟩
  · rw [ht, hn]
    exact evenSplit_distributeChannels (by omega)
  · rw [ht, ← hsize]
    exact evenSplit_distributeChannels hgroup
  · have hpos : 0 < total := by omega
    rw [ht, ← hsize, Int.natCast_inj, Int.ofNat_le]
    cases hmode : opts.transportMode with
    | mediaStream =>
      grind [opened_of_mediaStream, Nat.ne_of_lt]
    | dataChannels =>
      rw [opened_of_dataChannels ht hpos hmode h, sum_filled_iff hgroup]
      exact ⟨fun hle => ⟨rfl, hle⟩, And.right⟩

def calm : Env where
  newPeerConnection _ := none
  prepareMediaTrack _ := none
  generateRandomDCLabel _ _ := "dc"
  createDataChannel _ _ := none
  createOffer _ := none
  setLocalDescription _ := none

def withChannels (numChannels : Int) : Options where
  padding := false
  paddingMax := 0
  numChannels := numChannels
  smuxStreamBuffer := 0
  smuxSessionBuffer := 0
  smuxFrameSize := 0
  smuxKeepAlive := 0
  smuxKeepAliveTimeout := 0
  dcMaxBuffered := 0
  dcLowMark := 0

theorem fiveOnTwo_opensFive : ∃ servers, startServerGroup calm 2 (withChannels 5) = .ok servers ∧
    (opened servers : Int) = 5 := by
  obtain ⟨-, -, hstarts, hiff⟩ := opened_iff calm 2 (withChannels 5) (by decide) (by decide)
  obtain ⟨servers, h⟩ := hstarts
    ⟨fun _ => rfl, fun _ => rfl, fun _ _ => rfl, fun _ => rfl, fun _ => rfl⟩
  exact ⟨servers, h, (hiff servers h).mpr ⟨rfl, by decide⟩⟩

theorem oneOnTwo_opensSeven :
    distributeChannels 1 2 = [1, 0] ∧
    ∃ servers, startServerGroup calm 2 (withChannels 1) = .ok servers ∧
      servers.map (fun srv => srv.channels.length) = [1, 6] ∧ opened servers = 7 :=
  ⟨rfl, _, rfl, rfl, rfl⟩

end NatProxy.WebRTC.ChannelCounts
