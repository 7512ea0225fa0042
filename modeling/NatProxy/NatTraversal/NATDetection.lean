import NatProxy.NatTraversal.STUN
import Mathlib.Data.List.Basic

/-!
# Classification of a NAT by one STUN server

Model of `detectNATTypeRFC5780` and `stunBindReq` (`golib/nat/stun.go`), on a network without loss:
a response that the NAT lets in is in the inbox when the socket is read, and a read of an empty
inbox runs into the deadline. All probes go through one socket, so the contacts of the mapping test
are still there in the filtering test.

A NAT may keep its contacts for the internal endpoint or for each mapping.

`classified_iff` says exactly when the result is right. The test opens the way for the response that
is to be blocked, and the socket is bound to the unspecified address, so that the comparison of the
ports alone decides that there is no NAT (`misclassified`).
-/

namespace NatProxy.NatTraversal.STUN

open List

/-! ## The NAT and the server -/

inductive Class where
  | endpointIndependent
  | addressDependent
  | addressPortDependent
deriving DecidableEq, Repr

namespace Class

def mapping : Class → NATMapping
  | .endpointIndependent => .endpointIndependent
  | .addressDependent => .addressDependent
  | .addressPortDependent => .addressPortDependent

def filtering : Class → NATFiltering
  | .endpointIndependent => .endpointIndependent
  | .addressDependent => .addressDependent
  | .addressPortDependent => .addressPortDependent

/-- The external endpoints for the destinations `ds` are of this mapping class. -/
def Maps (m : Class) (ext : Endpoint → Endpoint) (ds : List Endpoint) : Prop :=
  ∀ d ∈ ds, ∀ e ∈ ds, ext d = ext e ↔
    match m with
    | .endpointIndependent => True
    | .addressDependent => d.ip = e.ip
    | .addressPortDependent => d = e

instance (m : Class) (ext : Endpoint → Endpoint) (ds : List Endpoint) :
    Decidable (m.Maps ext ds) := by
  unfold Maps
  cases m <;> infer_instance

def admits (f : Class) (d src : Endpoint) : Bool :=
  match f with
  | .endpointIndependent => true
  | .addressDependent => d.ip = src.ip
  | .addressPortDependent => d = src

end Class

/-- The external endpoint for each destination, the filtering class, and whether contacts count for
their own mapping only. -/
structure NAT where
  ext : Endpoint → Endpoint
  filtering : Class
  perMapping : Bool

/-- A packet from `src` to the external endpoint `dst` passes, after these contacts. -/
def NAT.lets (nat : NAT) (contacted : List Endpoint) (src dst : Endpoint) : Bool :=
  contacted.any fun d =>
    (!nat.perMapping || decide (nat.ext d = dst)) && nat.filtering.admits d src

/-- Two addresses and two ports; `legacy`: it also sends CHANGED-ADDRESS. -/
structure Server where
  ip : IP
  otherIP : IP
  port : Nat
  otherPort : Nat
  legacy : Bool
  ip_ne : otherIP ≠ ip
  port_ne : otherPort ≠ port

def changeIPFlag : BitVec 32 := 0x04

def changePortFlag : BitVec 32 := 0x02

namespace Server

def primary (srv : Server) : Endpoint := ⟨srv.ip, srv.port⟩

def addrs (srv : Server) : List Endpoint :=
  [⟨srv.ip, srv.port⟩, ⟨srv.ip, srv.otherPort⟩, ⟨srv.otherIP, srv.port⟩,
    ⟨srv.otherIP, srv.otherPort⟩]

def swapIP (srv : Server) (ip : IP) : IP := if ip = srv.ip then srv.otherIP else srv.ip

def swapPort (srv : Server) (port : Nat) : Nat :=
  if port = srv.port then srv.otherPort else srv.port

def source (srv : Server) (dst : Endpoint) (changeFlags : BitVec 32) : Endpoint where
  ip := if changeFlags &&& changeIPFlag ≠ 0 then srv.swapIP dst.ip else dst.ip
  port := if changeFlags &&& changePortFlag ≠ 0 then srv.swapPort dst.port else dst.port

def response (srv : Server) (dst src : Endpoint) (transactionID : Nat) : Message :=
  let other := { ip := srv.swapIP dst.ip, port := srv.swapPort dst.port }
  { transactionID := transactionID
    xorMappedAddress := some src
    changedAddress := if srv.legacy then some other else none
    otherAddress := some other }

end Server

structure Net where
  nat : NAT
  server : Server

structure Socket where
  contacted : List Endpoint := []
  inbox : List Datagram := []
  transactions : Nat := 0

/-- A request leaves; its response comes into the inbox if the NAT lets it in. -/
def Net.writeToUDP (net : Net) (s : Socket) (dst : Endpoint) (changeFlags : BitVec 32)
    (transactionID : Nat) : Socket :=
  let contacted := s.contacted.insert dst
  let src := net.nat.ext dst
  if dst ∈ net.server.addrs ∧
      net.nat.lets contacted (net.server.source dst changeFlags) src = true then
    { s with
      contacted := contacted
      inbox := s.inbox ++ [.message (net.server.response dst src transactionID)] }
  else { s with contacted := contacted }

/-! ## The probes -/

/-- The first message of the transaction, and what is left. -/
def readUntil (transactionID : Nat) : List Datagram → Option Message × List Datagram
  | [] => (none, [])
  | .garbage :: inbox => readUntil transactionID inbox
  | .message m :: inbox =>
    if m.transactionID ≠ transactionID then readUntil transactionID inbox else (some m, inbox)

inductive BindError where
  | recv
  | noMappedAddress
deriving DecidableEq, Repr

structure BindResult where
  mapped : Endpoint
  msg : Message
deriving DecidableEq, Repr

def bindAttempts (net : Net) (dst : Endpoint) (changeFlags : BitVec 32) (transactionID : Nat) :
    Nat → Socket → Except BindError BindResult × Socket
  | 0, s => (.error .recv, s)
  | attempts + 1, s =>
    let s := net.writeToUDP s dst changeFlags transactionID
    match readUntil transactionID s.inbox with
    | (none, inbox) =>
      bindAttempts net dst changeFlags transactionID attempts { s with inbox := inbox }
    | (some m, inbox) =>
      let s := { s with inbox := inbox }
      match m.xorMappedAddress with
      | some addr => (.ok ⟨addr, m⟩, s)
      | none =>
        match m.mappedAddress with
        | some addr => (.ok ⟨addr, m⟩, s)
        | none => (.error .noMappedAddress, s)

def maxRetries : Nat := 3

def stunBindReq (net : Net) (s : Socket) (dst : Endpoint) (changeFlags : BitVec 32) :
    Except BindError BindResult × Socket :=
  bindAttempts net dst changeFlags s.transactions maxRetries
    { s with transactions := s.transactions + 1 }

inductive DetectError where
  | testI (err : BindError)
  | noOtherAddress
  | bogonOtherAddress (ip : IP)
  | mappingTest (err err3 : BindError)
deriving DecidableEq, Repr

def mappingTest (net : Net) (s : Socket) (serverAddr : Endpoint) (res1 : BindResult)
    (alt : Endpoint) : Except DetectError NATMapping × Socket :=
  -- from here on the other address of the server is among the contacts
  match stunBindReq net s ⟨alt.ip, serverAddr.port⟩ 0 with
  | (.error err, s) =>
    match stunBindReq net s alt 0 with
    | (.error err3, s) => (.error (.mappingTest err err3), s)
    | (.ok res3, s) =>
      if res1.mapped = res3.mapped then (.ok .endpointIndependent, s)
      else (.ok .addressPortDependent, s)
  | (.ok res2, s) =>
    if res1.mapped = res2.mapped then (.ok .endpointIndependent, s)
    else
      match stunBindReq net s alt 0 with
      | (.error _, s) => (.ok .addressPortDependent, s)
      | (.ok res3, s) =>
        if res2.mapped = res3.mapped then (.ok .addressDependent, s)
        else (.ok .addressPortDependent, s)

def filteringTest (net : Net) (s : Socket) (serverAddr : Endpoint) : NATFiltering :=
  match stunBindReq net s serverAddr (changeIPFlag ||| changePortFlag) with
  | (.ok _, _) => .endpointIndependent
  | (.error _, s) =>
    match stunBindReq net s serverAddr changePortFlag with
    | (.ok _, _) => .addressDependent
    | (.error _, _) => .addressPortDependent

/-- The address of a socket that is bound to a port only. -/
def localAddr (localPort : Nat) : Endpoint := ⟨.ofOctets 0 0 0 0, localPort⟩

def detectNATTypeRFC5780 (net : Net) (localPort : Nat) : Except DetectError NATType :=
  let serverAddr := net.server.primary
  match stunBindReq net {} serverAddr 0 with
  | (.error err, _) => .error (.testI err)
  | (.ok res1, s) =>
    match getChangedAddr res1.msg with
    | none => .error .noOtherAddress
    | some alt =>
      if isBogonIP alt.ip then .error (.bogonOtherAddress alt.ip)
      else
        let localAddr := localAddr localPort
        -- the socket has no address of its own, so the ports alone decide
        if (localAddr.ip = res1.mapped.ip ∨ localAddr.ip = .ofOctets 0 0 0 0) ∧
            localAddr.port = res1.mapped.port then
          match stunBindReq net s serverAddr (changeIPFlag ||| changePortFlag) with
          | (.ok _, _) => .ok ⟨.endpointIndependent, .endpointIndependent, res1.mapped⟩
          | (.error _, _) => .ok ⟨.endpointIndependent, .addressPortDependent, res1.mapped⟩
        else
          match mappingTest net s serverAddr res1 alt with
          | (.error err, _) => .error err
          | (.ok mapping, s) => .ok ⟨mapping, filteringTest net s serverAddr, res1.mapped⟩

/-! ## One request -/

section Request

variable (net : Net) (dst : Endpoint) (changeFlags : BitVec 32)

def Socket.after (s : Socket) (dst : Endpoint) : Socket where
  contacted := s.contacted.insert dst
  inbox := []
  transactions := s.transactions + 1

def Net.Answers (s : Socket) : Prop :=
  net.nat.lets (s.contacted.insert dst) (net.server.source dst changeFlags) (net.nat.ext dst) = true

instance (s : Socket) : Decidable (net.Answers dst changeFlags s) :=
  inferInstanceAs (Decidable (_ = true))

def Net.result (transactionID : Nat) : BindResult where
  mapped := net.nat.ext dst
  msg := net.server.response dst (net.nat.ext dst) transactionID

variable {net dst changeFlags}

variable {s : Socket}

theorem bindAttempts_of_answers (hdst : dst ∈ net.server.addrs) (hin : s.inbox = [])
    (h : net.Answers dst changeFlags s) (transactionID attempts : Nat) :
    bindAttempts net dst changeFlags transactionID (attempts + 1) s =
      (.ok (net.result dst transactionID),
        { s with contacted := s.contacted.insert dst, inbox := [] }) := by
  have hwrite : net.writeToUDP s dst changeFlags transactionID =
      { s with
        contacted := s.contacted.insert dst
        inbox := [.message (net.server.response dst (net.nat.ext dst) transactionID)] } := by
    rw [Net.writeToUDP, if_pos ⟨hdst, h⟩, hin]
    rfl
  rw [bindAttempts, hwrite]
  simp [readUntil, Server.response, Net.result]

theorem bindAttempts_of_blocked (hin : s.inbox = [])
    (h : ¬ net.Answers dst changeFlags s) (transactionID attempts : Nat) :
    bindAttempts net dst changeFlags transactionID (attempts + 1) s =
      (.error .recv, { s with contacted := s.contacted.insert dst, inbox := [] }) := by
  induction attempts generalizing s with
  | zero =>
    rw [bindAttempts, Net.writeToUDP, if_neg (fun hc => h hc.2)]
    simp [hin, readUntil, bindAttempts]
  | succ attempts ih =>
    have hinsert : (s.contacted.insert dst).insert dst = s.contacted.insert dst :=
      insert_of_mem mem_insert_self
    rw [bindAttempts, Net.writeToUDP, if_neg (fun hc => h hc.2)]
    simp only [hin, readUntil]
    rw [ih rfl]
    · simp only [hinsert]
    · simpa only [Net.Answers, hinsert] using h

theorem stunBindReq_eq (hdst : dst ∈ net.server.addrs) (hin : s.inbox = []) :
    stunBindReq net s dst changeFlags =
      (if net.Answers dst changeFlags s then .ok (net.result dst s.transactions) else .error .recv,
        s.after dst) := by
  rw [stunBindReq, maxRetries]
  split
  case isTrue h =>
    exact bindAttempts_of_answers (s := { s with transactions := s.transactions + 1 }) hdst hin h
      _ 2
  case isFalse h =>
    exact bindAttempts_of_blocked (s := { s with transactions := s.transactions + 1 }) hin h _ 2

theorem lets_eq_true_iff {nat : NAT} {contacted : List Endpoint} {src dst : Endpoint} :
    nat.lets contacted src dst = true ↔ ∃ d ∈ contacted,
      (nat.perMapping = true → nat.ext d = dst) ∧ nat.filtering.admits d src = true := by
  cases hscope : nat.perMapping with
  | true | false => simp [NAT.lets, hscope]

theorem answers_zero (s : Socket) : net.Answers dst 0 s := by
  apply lets_eq_true_iff.mpr
  refine ⟨dst, mem_insert_self, fun _ => rfl, ?_⟩
  cases hf : net.nat.filtering <;> simp [Class.admits, Server.source]

theorem stunBindReq_zero (hdst : dst ∈ net.server.addrs) (hin : s.inbox = []) :
    stunBindReq net s dst 0 = (.ok (net.result dst s.transactions), s.after dst) := by
  rw [stunBindReq_eq hdst hin, if_pos (answers_zero s)]

end Request

/-! ## The tests -/

section Tests

variable {net : Net} {m : Class}

/-- The addresses of the probes. -/
def Server.alt2 (srv : Server) : Endpoint := ⟨srv.otherIP, srv.port⟩

def Server.alt3 (srv : Server) : Endpoint := ⟨srv.otherIP, srv.otherPort⟩

def Server.side (srv : Server) : Endpoint := ⟨srv.ip, srv.otherPort⟩

theorem primary_mem (srv : Server) : srv.primary ∈ srv.addrs := by
  simp [Server.primary, Server.addrs]

theorem alt2_mem (srv : Server) : srv.alt2 ∈ srv.addrs := by
  simp [Server.alt2, Server.addrs]

theorem alt3_mem (srv : Server) : srv.alt3 ∈ srv.addrs := by
  simp [Server.alt3, Server.addrs]

theorem source_changeBoth (srv : Server) :
    srv.source srv.primary (changeIPFlag ||| changePortFlag) = srv.alt3 := by
  simp [Server.source, Server.primary, Server.alt3, Server.swapIP, Server.swapPort, changeIPFlag,
    changePortFlag]

theorem source_changePort (srv : Server) : srv.source srv.primary changePortFlag = srv.side := by
  simp [Server.source, Server.primary, Server.side, Server.swapPort, changeIPFlag, changePortFlag]

theorem getChangedAddr_response (srv : Server) (src : Endpoint) (transactionID : Nat) :
    getChangedAddr (srv.response srv.primary src transactionID) = some srv.alt3 := by
  cases hlegacy : srv.legacy <;>
    simp [getChangedAddr, Server.response, hlegacy, Server.primary, Server.alt3, Server.swapIP,
      Server.swapPort]

theorem ext_alt2_eq_iff (hm : m.Maps net.nat.ext net.server.addrs) :
    net.nat.ext net.server.primary = net.nat.ext net.server.alt2 ↔ m = .endpointIndependent := by
  rw [hm _ (primary_mem _) _ (alt2_mem _)]
  cases m <;> simp [Server.primary, Server.alt2, net.server.ip_ne.symm]

theorem ext_alt3_eq_iff (hm : m.Maps net.nat.ext net.server.addrs) :
    net.nat.ext net.server.primary = net.nat.ext net.server.alt3 ↔ m = .endpointIndependent := by
  rw [hm _ (primary_mem _) _ (alt3_mem _)]
  cases m <;> simp [Server.primary, Server.alt3, net.server.ip_ne.symm]

theorem ext_alt2_eq_alt3_iff (hm : m.Maps net.nat.ext net.server.addrs) :
    net.nat.ext net.server.alt2 = net.nat.ext net.server.alt3 ↔ m ≠ .addressPortDependent := by
  rw [hm _ (alt2_mem _) _ (alt3_mem _)]
  cases m <;> simp [Server.alt2, Server.alt3, net.server.port_ne.symm]

def Socket.afterMapping (s : Socket) (srv : Server) (m : Class) : Socket :=
  if m = .endpointIndependent then s.after srv.alt2 else (s.after srv.alt2).after srv.alt3

variable {s : Socket}

theorem mappingTest_eq (hm : m.Maps net.nat.ext net.server.addrs) (hin : s.inbox = [])
    (transactionID : Nat) :
    mappingTest net s net.server.primary (net.result net.server.primary transactionID)
        net.server.alt3 =
      (.ok m.mapping, s.afterMapping net.server m) := by
  have hreq2 := stunBindReq_zero (s := s) (alt2_mem net.server) hin
  have hreq3 := stunBindReq_zero (s := s.after net.server.alt2) (alt3_mem net.server) rfl
  have haddr : (⟨net.server.alt3.ip, net.server.primary.port⟩ : Endpoint) = net.server.alt2 := rfl
  rw [mappingTest, haddr, hreq2]
  simp only [hreq3, Net.result, ext_alt2_eq_iff hm, ext_alt2_eq_alt3_iff hm, Socket.afterMapping]
  cases m with
  | endpointIndependent | addressDependent | addressPortDependent => rfl

theorem filteringTest_eq (hin : s.inbox = []) : filteringTest net s net.server.primary =
      if net.Answers net.server.primary (changeIPFlag ||| changePortFlag) s then
        .endpointIndependent
      else if net.Answers net.server.primary changePortFlag (s.after net.server.primary) then
        .addressDependent
      else .addressPortDependent := by
  have hmem := primary_mem net.server
  rw [filteringTest, stunBindReq_eq hmem hin]
  split_ifs with hboth hport
  · rfl
  · simp only
    rw [stunBindReq_eq hmem rfl, if_pos hport]
  · simp only
    rw [stunBindReq_eq hmem rfl, if_neg hport]

theorem answers_iff {dst : Endpoint} {changeFlags : BitVec 32} :
    net.Answers dst changeFlags s ↔ ∃ d, (d = dst ∨ d ∈ s.contacted) ∧
      (net.nat.perMapping = true → net.nat.ext d = net.nat.ext dst) ∧
      net.nat.filtering.admits d (net.server.source dst changeFlags) = true := by
  simp [Net.Answers, lets_eq_true_iff]

theorem mem_contacted_afterMapping {srv : Server} {d : Endpoint} :
    d ∈ (s.afterMapping srv m).contacted ↔
      (m ≠ .endpointIndependent ∧ d = srv.alt3) ∨ d = srv.alt2 ∨ d ∈ s.contacted := by
  cases m <;> simp [Socket.afterMapping, Socket.after]

section Admits

variable (f : Class) (srv : Server)

@[simp] theorem admits_self (d : Endpoint) : f.admits d d = true := by
  cases f <;> simp [Class.admits]

@[simp] theorem admits_primary_alt3 :
    f.admits srv.primary srv.alt3 = true ↔ f = .endpointIndependent := by
  cases f <;> simp [Class.admits, Server.primary, Server.alt3, srv.ip_ne.symm]

@[simp] theorem admits_alt2_alt3 :
    f.admits srv.alt2 srv.alt3 = true ↔ f ≠ .addressPortDependent := by
  cases f <;> simp [Class.admits, Server.alt2, Server.alt3, srv.port_ne.symm]

@[simp] theorem admits_primary_side :
    f.admits srv.primary srv.side = true ↔ f ≠ .addressPortDependent := by
  cases f <;> simp [Class.admits, Server.primary, Server.side, srv.port_ne.symm]

@[simp] theorem admits_alt2_side :
    f.admits srv.alt2 srv.side = true ↔ f = .endpointIndependent := by
  cases f <;> simp [Class.admits, Server.alt2, Server.side, srv.ip_ne]

@[simp] theorem admits_alt3_side :
    f.admits srv.alt3 srv.side = true ↔ f = .endpointIndependent := by
  cases f <;> simp [Class.admits, Server.alt3, Server.side, srv.ip_ne]

end Admits

def Socket.first (srv : Server) : Socket := ({} : Socket).after srv.primary

theorem contacted_first (srv : Server) : (Socket.first srv).contacted = [srv.primary] := rfl

theorem answers_changeBoth_first :
    net.Answers net.server.primary (changeIPFlag ||| changePortFlag) (.first net.server) ↔
      net.nat.filtering = .endpointIndependent := by
  simp [answers_iff, source_changeBoth, contacted_first]

theorem answers_changeBoth_afterMapping (hm : m.Maps net.nat.ext net.server.addrs) :
    net.Answers net.server.primary (changeIPFlag ||| changePortFlag)
        ((Socket.first net.server).afterMapping net.server m) ↔
      net.nat.filtering = .endpointIndependent ∨
        ((net.nat.perMapping = true → m = .endpointIndependent) ∧
          (m ≠ .endpointIndependent ∨ net.nat.filtering ≠ .addressPortDependent)) := by
  simp only [answers_iff, source_changeBoth, mem_contacted_afterMapping, contacted_first,
    mem_singleton]
  constructor
  · rintro ⟨d, rfl | ⟨hne, rfl⟩ | rfl | rfl, hscope, hadmits⟩
    · exact .inl ((admits_primary_alt3 _ _).mp hadmits)
    · exact .inr ⟨fun hp => (ext_alt3_eq_iff hm).mp (hscope hp).symm, .inl hne⟩
    · refine .inr ⟨fun hp => (ext_alt2_eq_iff hm).mp (hscope hp).symm, .inr ?_⟩
      exact (admits_alt2_alt3 _ _).mp hadmits
    · exact .inl ((admits_primary_alt3 _ _).mp hadmits)
  · rintro (hf | ⟨hscope, hne | hf⟩)
    · exact ⟨_, .inl rfl, fun _ => rfl, (admits_primary_alt3 _ _).mpr hf⟩
    · simp_all
    · grind [admits_alt2_alt3, ext_alt2_eq_iff]

theorem answers_changePort_afterMapping :
    net.Answers net.server.primary changePortFlag
        (((Socket.first net.server).afterMapping net.server m).after net.server.primary) ↔
      net.nat.filtering ≠ .addressPortDependent := by
  simp only [answers_iff, source_changePort, Socket.after, mem_insert_iff,
    mem_contacted_afterMapping, contacted_first, mem_singleton]
  constructor
  · rintro ⟨d, rfl | rfl | ⟨hne, rfl⟩ | rfl | rfl, hscope, hadmits⟩
    · exact (admits_primary_side _ _).mp hadmits
    · exact (admits_primary_side _ _).mp hadmits
    · rw [(admits_alt3_side _ _).mp hadmits]
      decide
    · rw [(admits_alt2_side _ _).mp hadmits]
      decide
    · exact (admits_primary_side _ _).mp hadmits
  · intro hf
    exact ⟨_, .inl rfl, fun _ => rfl, (admits_primary_side _ _).mpr hf⟩

theorem filteringTest_afterMapping (hm : m.Maps net.nat.ext net.server.addrs) :
    filteringTest net ((Socket.first net.server).afterMapping net.server m) net.server.primary =
        net.nat.filtering.filtering ↔
      net.nat.filtering = .endpointIndependent ∨
        (net.nat.filtering = .addressPortDependent ∧ m = .endpointIndependent) ∨
        (net.nat.perMapping = true ∧ m ≠ .endpointIndependent) := by
  have hin : ((Socket.first net.server).afterMapping net.server m).inbox = [] := by
    cases m <;> rfl
  rw [filteringTest_eq hin, if_congr (answers_changeBoth_afterMapping hm) rfl
    (if_congr answers_changePort_afterMapping rfl rfl)]
  cases net.nat.filtering <;> cases m <;> cases net.nat.perMapping <;> simp [Class.filtering]

end Tests

/-! ## When the result is right -/

section Results

variable (net : Net) (m : Class) (localPort : Nat)

def Net.PreservesPort : Prop := (net.nat.ext net.server.primary).port = localPort

instance : Decidable (net.PreservesPort localPort) := inferInstanceAs (Decidable (_ = _))

/-- When the class is right, if the first mapping keeps the local port and if it does not. -/
def Net.Classifiable : Prop :=
  isBogonIP net.server.otherIP = false ∧
    if net.PreservesPort localPort then
      m = .endpointIndependent ∧ net.nat.filtering ≠ .addressDependent
    else
      net.nat.filtering = .endpointIndependent ∨
        (net.nat.filtering = .addressPortDependent ∧ m = .endpointIndependent) ∨
        (net.nat.perMapping = true ∧ m ≠ .endpointIndependent)

instance : Decidable (net.Classifiable m localPort) := by
  unfold Net.Classifiable
  infer_instance

/-- The detection gives the type of the NAT. -/
def Net.Classified (t : Except DetectError NATType) : Prop :=
  ∃ mapped, t = .ok ⟨m.mapping, net.nat.filtering.filtering, mapped⟩

variable {net m localPort}

theorem detect_eq : detectNATTypeRFC5780 net localPort =
    if isBogonIP net.server.otherIP then .error (.bogonOtherAddress net.server.otherIP)
    else if net.PreservesPort localPort then
      .ok ⟨.endpointIndependent,
        if net.nat.filtering = .endpointIndependent then .endpointIndependent
        else .addressPortDependent, net.nat.ext net.server.primary⟩
    else
      match mappingTest net (.first net.server) net.server.primary
        (net.result net.server.primary 0) net.server.alt3 with
      | (.error err, _) => .error err
      | (.ok mapping, s) =>
        .ok ⟨mapping, filteringTest net s net.server.primary,
          net.nat.ext net.server.primary⟩ := by
  have hreq1 : stunBindReq net {} net.server.primary 0 =
      (.ok (net.result net.server.primary 0), .first net.server) :=
    stunBindReq_zero (primary_mem net.server) rfl
  have halt : getChangedAddr (net.result net.server.primary 0).msg = some net.server.alt3 :=
    getChangedAddr_response net.server _ 0
  have hreq2 : stunBindReq net (.first net.server) net.server.primary
      (changeIPFlag ||| changePortFlag) = _ := stunBindReq_eq (primary_mem net.server) rfl
  rw [if_congr answers_changeBoth_first rfl rfl] at hreq2
  -- the socket is bound to the unspecified address, so only the ports are compared
  have hlocal : (((localAddr localPort).ip = (net.result net.server.primary 0).mapped.ip ∨
      (localAddr localPort).ip = .ofOctets 0 0 0 0) ∧
        (localAddr localPort).port = (net.result net.server.primary 0).mapped.port) ↔
      net.PreservesPort localPort := by
    simp [localAddr, Net.PreservesPort, Net.result, eq_comm]
  simp only [detectNATTypeRFC5780, hreq1, halt, hlocal, hreq2]
  by_cases hf : net.nat.filtering = .endpointIndependent
  · simp only [hf, if_true]
    rfl
  · simp only [hf, if_false]
    rfl

theorem detect_of_preservesPort (hpublic : isBogonIP net.server.otherIP = false)
    (h : net.PreservesPort localPort) : net.Classified m (detectNATTypeRFC5780 net localPort) ↔
      m = .endpointIndependent ∧ net.nat.filtering ≠ .addressDependent := by
  rw [detect_eq, hpublic, if_pos h, Net.Classified]
  cases m <;> cases net.nat.filtering <;> simp [Class.mapping, Class.filtering]

theorem detect_of_not_preservesPort (hm : m.Maps net.nat.ext net.server.addrs)
    (hpublic : isBogonIP net.server.otherIP = false) (h : ¬ net.PreservesPort localPort) :
    net.Classified m (detectNATTypeRFC5780 net localPort) ↔
      filteringTest net ((Socket.first net.server).afterMapping net.server m) net.server.primary =
        net.nat.filtering.filtering := by
  rw [detect_eq, hpublic, if_neg h, mappingTest_eq hm rfl, Net.Classified]
  simp

/-- **The classification is right** exactly on these NATs, ports and servers. -/
theorem classified_iff (net : Net) (m : Class) (hm : m.Maps net.nat.ext net.server.addrs)
    (localPort : Nat) : net.Classified m (detectNATTypeRFC5780 net localPort) ↔
      net.Classifiable m localPort := by
  rw [Net.Classifiable]
  cases hpublic : isBogonIP net.server.otherIP with
  | true =>
    rw [detect_eq, hpublic, Net.Classified]
    simp
  | false =>
    by_cases h : net.PreservesPort localPort
    · rw [if_pos h, detect_of_preservesPort hpublic h]
      simp
    · rw [if_neg h, detect_of_not_preservesPort hm hpublic h, filteringTest_afterMapping hm]
      simp

end Results

/-! ## Examples -/

def twoAddresses : Server where
  ip := .ofOctets 5 9 1 1
  otherIP := .ofOctets 5 9 1 2
  port := 3478
  otherPort := 3479
  legacy := false
  ip_ne := by decide
  port_ne := by decide

def cone (filtering : Class) : Net where
  nat := { ext := fun _ => ⟨.ofOctets 1 2 3 4, 40000⟩, filtering := filtering, perMapping := false }
  server := twoAddresses

def symmetric : Net where
  nat :=
    { ext := fun d => ⟨.ofOctets 1 2 3 4, 50000 + (if d.ip = .ofOctets 5 9 1 2 then 1 else 0) +
        (if d.port = 3479 then 2 else 0)⟩
      filtering := .addressPortDependent
      perMapping := true }
  server := twoAddresses

theorem classified_portRestrictedCone :
    (cone .addressPortDependent).Classified .endpointIndependent
      (detectNATTypeRFC5780 (cone .addressPortDependent) 50000) :=
  (classified_iff _ _ (by decide) _).mpr (by decide)

theorem misclassified :
    Class.endpointIndependent.Maps (cone .addressDependent).nat.ext twoAddresses.addrs ∧
    detectNATTypeRFC5780 (cone .addressDependent) 50000 =
      .ok ⟨.endpointIndependent, .endpointIndependent, ⟨.ofOctets 1 2 3 4, 40000⟩⟩ ∧
    Class.addressPortDependent.Maps symmetric.nat.ext twoAddresses.addrs ∧
    detectNATTypeRFC5780 symmetric 50000 =
      .ok ⟨.endpointIndependent, .addressPortDependent, ⟨.ofOctets 1 2 3 4, 50000⟩⟩ := by
  refine ⟨by decide, by rfl, by decide, by rfl⟩

end NatProxy.NatTraversal.STUN
