import Mathlib.Data.List.Basic

/-!
# Port mappings

Model of `TryUPnP` and `TryPortMapping` (`golib/nat/upnp.go`). `TryUPnP` asks each gateway client in
turn for a port mapping, several times with other external ports, and once more without a lease time
after the first refusal. A mapping that it gets is appended to `activeLeases`, and a goroutine
renews it from then on. `TryPortMapping` falls back to NAT-PMP and PCP, whose mappings are neither
registered nor renewed.

What the network answers is in `Gateway`. `tryUPnP_spec` says when there is a mapping, and that a
call adds one lease with its renewal or leaves everything as it was.
-/

namespace NatProxy.NatTraversal

/-- The answers to each attempt, and to the call without a lease time. -/
structure IGDClient where
  getExternalIPAddress : Except String String
  addPortMapping : Nat → Option String
  addIndefinite : Option String

/-- What the functions depend on; the random ports are for the client and the attempt. -/
structure Gateway where
  discoverUPnPClients : Int → Except String (List IGDClient)
  getLocalIP : Except String String
  isPrivateIP : String → Bool
  randomPort : Nat → Nat → Int
  tryNATPMP : Int → Int → String → Int → Except String (String × Int)
  tryPCP : Int → Int → String → Int → Except String (String × Int)

/-- `upnpLease`; the client is given by its number among those that were found. -/
structure UPnPLease where
  port : Int
  protocol : String
  client : Nat
  stopCh : Nat
deriving DecidableEq, Repr

structure Renewal where
  lease : UPnPLease
  internalPort : Int
  localIP : String
  leaseDuration : Int
deriving DecidableEq, Repr

/-- `activeLeases`, the goroutines that renew them, and the number of channels made so far. -/
structure Leases where
  activeLeases : List UPnPLease := []
  renewals : List Renewal := []
  stopChs : Nat := 0
deriving DecidableEq, Repr

structure UPnPOptions where
  leaseDuration : Int
  mappingRetries : Int
  ssdpTimeout : Int

def upnpMappingRetries : Int := 3

def upnpLeaseDuration : Int := 3600

def ssdpSearchTimeout : Int := 3

def UPnPOptions.withDefaults (opts : UPnPOptions) : UPnPOptions where
  leaseDuration := if opts.leaseDuration < 0 then upnpLeaseDuration else opts.leaseDuration
  mappingRetries := if opts.mappingRetries ≤ 0 then upnpMappingRetries else opts.mappingRetries
  ssdpTimeout := if opts.ssdpTimeout ≤ 0 then ssdpSearchTimeout else opts.ssdpTimeout

def uint32 (n : Int) : Int := n % 4294967296

def Leases.add (s : Leases) (port : Int) (protocol : String) (client : Nat) (internalPort : Int)
    (localIP : String) (leaseDuration : Int) : Leases :=
  let lease := { port := port, protocol := protocol, client := client, stopCh := s.stopChs }
  { activeLeases := s.activeLeases ++ [lease]
    renewals := s.renewals ++ [⟨lease, internalPort, localIP, leaseDuration⟩]
    stopChs := s.stopChs + 1 }

/-- The arguments of `TryUPnP`, after the defaults, and the local address. -/
structure Request where
  internalPort : Int
  externalPort : Int
  protocol : String
  opts : UPnPOptions
  localIP : String

variable (env : Gateway)

/-! ## The loops -/

def tryAttempts (req : Request) (i : Nat) (client : IGDClient) (s : Leases) :
    Nat → Nat → String → Except String Int × Leases
  | 0, _, lastErr => (.error lastErr, s)
  | left + 1, attempts, _ =>
    let port := if attempts = 0 then req.externalPort else env.randomPort i attempts
    match client.addPortMapping attempts with
    | none =>
      (.ok port, s.add port req.protocol i req.internalPort req.localIP
        (uint32 req.opts.leaseDuration))
    | some err =>
      if attempts = 0 then
        match client.addIndefinite with
        | none => (.ok port, s.add port req.protocol i req.internalPort req.localIP 0)
        | some err => tryAttempts req i client s left (attempts + 1) err
      else
        tryAttempts req i client s left (attempts + 1) err

def tryClients (req : Request) (s : Leases) :
    List IGDClient → Nat → String → Except String (String × Int) × Leases
  | [], _, lastErr => (.error lastErr, s)
  | client :: clients, i, lastErr =>
    match client.getExternalIPAddress with
    | .error err => tryClients req s clients (i + 1) err
    | .ok externalIP =>
      if env.isPrivateIP externalIP then
        tryClients req s clients (i + 1)
          ("double NAT detected: external IP " ++ externalIP ++ " is private")
      else
        match tryAttempts env req i client s req.opts.mappingRetries.toNat 0 lastErr with
        | (.ok port, t) => (.ok (externalIP, port), t)
        | (.error err, _) => tryClients req s clients (i + 1) err

def tryUPnP (internalPort externalPort : Int) (protocol : String) (opts : UPnPOptions)
    (s : Leases) : Except String (String × Int) × Leases :=
  let opts := opts.withDefaults
  match env.discoverUPnPClients opts.ssdpTimeout with
  | .error err => (.error ("UPnP discovery failed: " ++ err), s)
  | .ok clients =>
    if clients = [] then (.error "no UPnP IGD devices found", s)
    else
      match env.getLocalIP with
      | .error err => (.error ("get local IP: " ++ err), s)
      | .ok localIP =>
        match tryClients env ⟨internalPort, externalPort, protocol, opts, localIP⟩ s clients 0
          "" with
        | (.ok found, t) => (.ok found, t)
        | (.error err, t) => (.error ("UPnP port mapping failed: " ++ err), t)

/-- The method of a port mapping, with the text that stands for it in `serverMethod`. -/
inductive MapMethod where
  | upnp
  | natpmp
  | pcp
deriving DecidableEq, Repr

def MapMethod.name : MapMethod → String
  | .upnp => "upnp"
  | .natpmp => "natpmp"
  | .pcp => "pcp"

structure Mapping where
  externalIP : String
  port : Int
  method : MapMethod
deriving DecidableEq, Repr

def pmpLifetimeOf (pmpLifetime : Int) : Int := if pmpLifetime ≤ 0 then 3600 else pmpLifetime

def tryPortMapping (internalPort externalPort : Int) (protocol : String) (opts : UPnPOptions)
    (pmpLifetime : Int) (s : Leases) : Except String Mapping × Leases :=
  match tryUPnP env internalPort externalPort protocol opts s with
  | (.ok (extIP, extPort), t) => (.ok ⟨extIP, extPort, .upnp⟩, t)
  | (.error _, t) =>
    let lifetime := pmpLifetimeOf pmpLifetime
    match env.tryNATPMP internalPort externalPort protocol lifetime with
    | .ok (extIP, extPort) => (.ok ⟨extIP, extPort, .natpmp⟩, t)
    | .error _ =>
      match env.tryPCP internalPort externalPort protocol lifetime with
      | .ok (extIP, extPort) => (.ok ⟨extIP, extPort, .pcp⟩, t)
      | .error _ => (.error "all port mapping methods failed (UPnP, NAT-PMP, PCP)", t)

/-! ## When a gateway grants a mapping -/

/-- A client grants a mapping from attempt number `attempts` on. Only the first repeats the call
without a lease time. -/
def IGDClient.GrantsFrom (client : IGDClient) (attempts left : Nat) : Prop :=
  (∃ k < left, client.addPortMapping (attempts + k) = none) ∨
    (attempts = 0 ∧ 0 < left ∧ client.addIndefinite = none)

def IGDClient.Grants (client : IGDClient) (retries : Nat) : Prop :=
  ∃ externalIP, client.getExternalIPAddress = .ok externalIP ∧
    env.isPrivateIP externalIP = false ∧ client.GrantsFrom 0 retries

def Gateway.GrantsUPnP (opts : UPnPOptions) : Prop :=
  ∃ clients localIP, env.discoverUPnPClients opts.withDefaults.ssdpTimeout = .ok clients ∧
    env.getLocalIP = .ok localIP ∧
    ∃ client ∈ clients, client.Grants env opts.withDefaults.mappingRetries.toNat

def Gateway.GrantsOther (internalPort externalPort : Int) (protocol : String) (lifetime : Int) :
    Prop :=
  (∃ found, env.tryNATPMP internalPort externalPort protocol lifetime = .ok found) ∨
    ∃ found, env.tryPCP internalPort externalPort protocol lifetime = .ok found

/-- A call was granted a mapping and has registered one lease, or neither. -/
inductive Registers {α : Type} (port : α → Int) (protocol : String) (internalPort : Int)
    (s : Leases) (granted : Prop) : Except String α × Leases → Prop
  | mapped (found : α) (client : Nat) (localIP : String) (leaseDuration : Int) (h : granted) :
      Registers port protocol internalPort s granted
        (.ok found, s.add (port found) protocol client internalPort localIP leaseDuration)
  | refused (err : String) (h : ¬ granted) :
      Registers port protocol internalPort s granted (.error err, s)

/-! ## The loops, one attempt and one client at a time -/

theorem grantsFrom_zero (client : IGDClient) (attempts : Nat) :
    ¬ client.GrantsFrom attempts 0 := by
  rintro (⟨k, hk, _⟩ | ⟨_, h, _⟩)
  · exact absurd hk (Nat.not_lt_zero k)
  · exact absurd h (Nat.lt_irrefl 0)

theorem grantsFrom_succ (client : IGDClient) (attempts left : Nat) :
    client.GrantsFrom attempts (left + 1) ↔ client.addPortMapping attempts = none ∨
      (attempts = 0 ∧ client.addIndefinite = none) ∨ client.GrantsFrom (attempts + 1) left := by
  constructor
  · rintro (⟨k, hk, hnone⟩ | ⟨hzero, -, hnone⟩)
    · cases k with
      | zero => exact .inl hnone
      | succ k =>
        refine .inr (.inr (.inl ⟨k, Nat.lt_of_succ_lt_succ hk, ?_⟩))
        rw [Nat.add_right_comm]
        exact hnone
    · exact .inr (.inl ⟨hzero, hnone⟩)
  · rintro (hnone | ⟨hzero, hnone⟩ | ⟨k, hk, hnone⟩ | ⟨hzero, -, -⟩)
    · exact .inl ⟨0, Nat.succ_pos left, hnone⟩
    · exact .inr ⟨hzero, Nat.succ_pos left, hnone⟩
    · refine .inl ⟨k + 1, Nat.succ_lt_succ hk, ?_⟩
      rw [← Nat.add_assoc, Nat.add_right_comm]
      exact hnone
    · exact absurd hzero (Nat.succ_ne_zero attempts)

theorem tryAttempts_spec (req : Request) (i : Nat) (client : IGDClient) (s : Leases)
    (left attempts : Nat) (lastErr : String) :
    Registers id req.protocol req.internalPort s (client.GrantsFrom attempts left)
      (tryAttempts env req i client s left attempts lastErr) := by
  induction left generalizing attempts lastErr with
  | zero => exact .refused lastErr (grantsFrom_zero client attempts)
  | succ left ih =>
    have hgrants := grantsFrom_succ client attempts left
    rw [tryAttempts]
    cases hadd : client.addPortMapping attempts with
    | none => exact .mapped _ _ _ _ (hgrants.mpr (.inl hadd))
    | some err =>
      -- the answer of this attempt is no longer needed
      have hnext : ¬ (attempts = 0 ∧ client.addIndefinite = none) →
          (client.GrantsFrom attempts (left + 1) ↔ client.GrantsFrom (attempts + 1) left) := by
        intro hno
        rw [hgrants, hadd]
        simp [hno]
      dsimp only
      by_cases hzero : attempts = 0
      case pos =>
        rw [if_pos hzero]
        cases hind : client.addIndefinite with
        | none => exact .mapped _ _ _ _ (hgrants.mpr (.inr (.inl ⟨hzero, hind⟩)))
        | some err' =>
          rw [hnext (fun h => by rw [hind] at h; cases h.2)]
          exact ih (attempts + 1) err'
      case neg =>
        rw [if_neg hzero, hnext (fun h => hzero h.1)]
        exact ih (attempts + 1) err

theorem grants_of_error {client : IGDClient} {err : String} (retries : Nat)
    (h : client.getExternalIPAddress = .error err) : ¬ client.Grants env retries := by
  rintro ⟨ip, hip, -⟩
  rw [h] at hip
  cases hip

theorem grants_of_ok {client : IGDClient} {externalIP : String} (retries : Nat)
    (h : client.getExternalIPAddress = .ok externalIP) : client.Grants env retries ↔
      env.isPrivateIP externalIP = false ∧ client.GrantsFrom 0 retries := by
  constructor
  · rintro ⟨ip, hip, hrest⟩
    rw [h] at hip
    cases hip
    exact hrest
  · exact fun hrest => ⟨externalIP, h, hrest⟩

theorem tryClients_spec (req : Request) (s : Leases) (clients : List IGDClient) (i : Nat)
    (lastErr : String) :
    Registers Prod.snd req.protocol req.internalPort s
      (∃ client ∈ clients, client.Grants env req.opts.mappingRetries.toNat)
      (tryClients env req s clients i lastErr) := by
  induction clients generalizing i lastErr with
  | nil => exact .refused lastErr (by simp)
  | cons client clients ih =>
    have hcons : (∃ c ∈ client :: clients, c.Grants env req.opts.mappingRetries.toNat) ↔
        client.Grants env req.opts.mappingRetries.toNat ∨
          ∃ c ∈ clients, c.Grants env req.opts.mappingRetries.toNat :=
      List.exists_mem_cons_iff _ _ _
    rw [hcons, tryClients]
    cases hip : client.getExternalIPAddress with
    | error err =>
      rw [or_iff_right (grants_of_error env _ hip)]
      exact ih (i + 1) err
    | ok externalIP =>
      have hgrants := grants_of_ok env req.opts.mappingRetries.toNat hip
      dsimp only
      by_cases hprivate : env.isPrivateIP externalIP = true
      case pos =>
        simp_all
      case neg =>
        rw [if_neg hprivate]
        have hpublic : env.isPrivateIP externalIP = false := Bool.eq_false_iff.mpr hprivate
        have hspec := tryAttempts_spec env req i client s req.opts.mappingRetries.toNat 0
          lastErr
        generalize tryAttempts env req i client s req.opts.mappingRetries.toNat 0 lastErr = r
          at hspec
        cases hspec with
        | mapped port _ _ _ h =>
          exact .mapped (externalIP, port) _ _ _ (.inl (hgrants.mpr ⟨hpublic, h⟩))
        | refused err h =>
          rw [or_iff_right (fun hg => h (hgrants.mp hg).2)]
          exact ih (i + 1) err

/-- **`TryUPnP`** registers and renews one lease exactly if a client grants a mapping. -/
theorem tryUPnP_spec (internalPort externalPort : Int) (protocol : String) (opts : UPnPOptions)
    (s : Leases) : Registers Prod.snd protocol internalPort s (env.GrantsUPnP opts)
      (tryUPnP env internalPort externalPort protocol opts s) := by
  rw [tryUPnP]
  cases hclients : env.discoverUPnPClients opts.withDefaults.ssdpTimeout with
  | error err =>
    refine .refused _ ?_
    rintro ⟨clients, -, hok, -⟩
    rw [hclients] at hok
    cases hok
  | ok clients =>
    dsimp only
    by_cases hempty : clients = []
    case pos =>
      rw [if_pos hempty]
      refine .refused _ ?_
      rintro ⟨found, -, hok, -, client, hmem, -⟩
      rw [hclients] at hok
      cases hok
      rw [hempty] at hmem
      exact List.not_mem_nil hmem
    case neg =>
      rw [if_neg hempty]
      cases hlocal : env.getLocalIP with
      | error err =>
        refine .refused _ ?_
        rintro ⟨-, localIP, -, hok, -⟩
        rw [hlocal] at hok
        cases hok
      | ok localIP =>
        have hgrants : env.GrantsUPnP opts ↔
            ∃ client ∈ clients, client.Grants env opts.withDefaults.mappingRetries.toNat := by
          constructor
          · rintro ⟨found, -, hok, -, hclient⟩
            rw [hclients] at hok
            cases hok
            exact hclient
          · exact fun hclient => ⟨clients, localIP, hclients, hlocal, hclient⟩
        dsimp only
        have hspec := tryClients_spec env
          ⟨internalPort, externalPort, protocol, opts.withDefaults, localIP⟩ s clients 0 ""
        generalize tryClients env _ s clients 0 "" = r at hspec
        cases hspec with
        | mapped found _ _ _ h => exact .mapped found _ _ _ (hgrants.mpr h)
        | refused err h => exact .refused _ (fun hg => h (hgrants.mp hg))

/-- **`TryPortMapping`**: the mapping of UPnP with its lease, or one of NAT-PMP or PCP without. -/
theorem tryPortMapping_spec (internalPort externalPort : Int) (protocol : String)
    (opts : UPnPOptions) (pmpLifetime : Int) (s : Leases) :
    (env.GrantsUPnP opts ∧ ∃ m client localIP leaseDuration,
      tryPortMapping env internalPort externalPort protocol opts pmpLifetime s =
        (.ok m, s.add m.port protocol client internalPort localIP leaseDuration)) ∨
    (¬ env.GrantsUPnP opts ∧ ∃ r,
      ((∃ m, r = .ok m) ↔
        env.GrantsOther internalPort externalPort protocol (pmpLifetimeOf pmpLifetime)) ∧
      tryPortMapping env internalPort externalPort protocol opts pmpLifetime s = (r, s)) := by
  have hspec := tryUPnP_spec env internalPort externalPort protocol opts s
  rw [tryPortMapping, Gateway.GrantsOther]
  generalize tryUPnP env internalPort externalPort protocol opts s = r at hspec
  cases hspec with
  | mapped found client localIP leaseDuration h =>
    exact .inl ⟨h, ⟨found.1, found.2, .upnp⟩, client, localIP, leaseDuration, rfl⟩
  | refused err h =>
    refine .inr ⟨h, ?_⟩
    dsimp only
    -- the other two methods do not touch the leases
    cases env.tryNATPMP internalPort externalPort protocol (pmpLifetimeOf pmpLifetime) with
    | ok found => exact ⟨_, by simp, rfl⟩
    | error _ =>
      cases env.tryPCP internalPort externalPort protocol (pmpLifetimeOf pmpLifetime) with
      | ok found | error _ => exact ⟨_, by simp, rfl⟩

end NatProxy.NatTraversal
