import NatProxy.Signaling.Relay

/-!
# What the relay expires

The collector of the relay looks at the times that the slots of a session carry, and only a
registration sets them. `registeredLately_iff` ties them to the packets that were handled: a session
is not stale exactly if one of its peers has registered in it during the last `ttl` time units. A
session in use is therefore spared exactly if that is so (`sparesUsed_iff`). Peers register only at
the start, so a session is deleted in the middle of a transfer (`busySession_swept`).
-/

namespace NatProxy.Signaling.Relay

open Lib List

variable {ttl : Nat} {s t : State}

def Outcome.served : Outcome → Bool
  | .registered _ _ => true
  | .data target => target.isSome

/-- A packet from a peer was registered or forwarded during the last `ttl` time units. -/
def State.Used (s : State) (ttl : Nat) (sess : RelaySession) : Prop :=
  ∃ e ∈ s.log, e.outcome.served = true ∧ s.now < e.time + ttl ∧ sess.holds e.src

instance (s : State) (ttl : Nat) (sess : RelaySession) : Decidable (s.Used ttl sess) :=
  inferInstanceAs (Decidable (∃ e ∈ s.log, _))

/-- A peer with a slot registered during the last `ttl` time units. -/
def State.RegisteredLately (s : State) (ttl : Nat) (key : Key) (sess : RelaySession) : Prop :=
  ∃ role p, sess.peer role = some p ∧
    ∃ e ∈ s.log, e.outcome = .registered key role ∧ e.src = p.addr ∧ s.now < e.time + ttl

/-- A round of the collector finds a state with `P`. -/
def OnSweep (P : State → Prop) (s : State) : Action → Prop
  | .sweep => P s
  | .packet _ _ _ | .tick => True

/-- A round of the collector deletes only sessions that are not in use. -/
def SparesUsed (ttl : Nat) (s : State) : Prop :=
  ∀ key sess, s.sessions.lookup key = some sess →
    (s.sweep ttl).sessions.lookup key = none → ¬ s.Used ttl sess

/-- In each session in use a peer has registered lately. -/
def UsedRegistered (ttl : Nat) (s : State) : Prop :=
  ∀ key sess, s.sessions.lookup key = some sess → s.Used ttl sess → s.RegisteredLately ttl key sess

/-! ## The times in the slots -/

/-- The time in a slot is that of the last registration for it. -/
structure Recorded (s : State) : Prop where
  past : ∀ e ∈ s.log, e.time ≤ s.now
  logged : ∀ key sess role p, s.sessions.lookup key = some sess → sess.peer role = some p →
    ⟨p.updatedAt, p.addr, .registered key role⟩ ∈ s.log
  latest : ∀ key sess role p e, s.sessions.lookup key = some sess → sess.peer role = some p →
    e ∈ s.log → e.outcome = .registered key role → e.time ≤ p.updatedAt

theorem recorded_init : Recorded {} where
  past := fun e h => absurd h not_mem_nil
  logged := fun key sess role p h => by cases h
  latest := fun key sess role p e h => by cases h

variable {key : Key} {src : UDPAddr} {sess : RelaySession}

theorem peer_register {key' : Key} {role role' : Role} {p : RelayPeer}
    (hsess : (s.register key role src).sessions.lookup key' = some sess)
    (hp : sess.peer role' = some p) : (key' = key ∧ role' = role ∧ p = ⟨src, s.now⟩) ∨
      ((key' ≠ key ∨ role' ≠ role) ∧
        ∃ before, s.sessions.lookup key' = some before ∧ before.peer role' = some p) := by
  rcases lookup_register.1 hsess with ⟨rfl, rfl⟩ | ⟨hne, hold⟩
  · by_cases hrole : role' = role
    · subst hrole
      rw [peer_setPeer_self, Option.some.injEq] at hp
      exact .inl ⟨rfl, rfl, hp.symm⟩
    · rw [peer_setPeer_of_ne _ hrole] at hp
      cases hbefore : s.sessions.lookup key' with
      | none =>
        rw [hbefore] at hp
        cases role' <;> cases hp
      | some before =>
        rw [hbefore] at hp
        exact .inr ⟨.inr hrole, before, rfl, hp⟩
  · exact .inr ⟨.inl hne, sess, hold, hp⟩

theorem recorded_register {role : Role} (hs : Recorded s) :
    Recorded (s.register key role src) where
  past := forall_mem_cons.2 ⟨Nat.le_refl s.now, hs.past⟩
  logged := by
    intro key' sess role' p hsess hp
    rcases peer_register hsess hp with ⟨rfl, rfl, rfl⟩ | ⟨-, before, hbefore, hpeer⟩
    · exact mem_cons_self
    · exact mem_cons_of_mem _ (hs.logged key' before role' p hbefore hpeer)
  latest := by
    intro key' sess role' p e hsess hp he hreg
    rcases peer_register hsess hp with ⟨rfl, rfl, rfl⟩ | ⟨hother, before, hbefore, hpeer⟩
    · -- the new time is the present one
      rcases mem_cons.1 he with rfl | hold
      · exact Nat.le_refl s.now
      · exact hs.past e hold
    · rcases mem_cons.1 he with rfl | hold
      · cases hreg
        rcases hother with hne | hne <;> exact absurd rfl hne
      · exact hs.latest key' before role' p e hbefore hpeer hold hreg

theorem recorded_forward {order : List RelaySession} (hs : Recorded s) :
    Recorded (s.forward src order) where
  past := forall_mem_cons.2 ⟨Nat.le_refl s.now, hs.past⟩
  logged := fun key sess role p hsess hp =>
    mem_cons_of_mem _ (hs.logged key sess role p hsess hp)
  latest := by
    intro key sess role p e hsess hp he hreg
    rcases mem_cons.1 he with rfl | hold
    · cases hreg
    · exact hs.latest key sess role p e hsess hp hold hreg

theorem recorded_step {a : Action} (hs : Recorded s) (hstep : step ttl s a = some t) :
    Recorded t := by
  cases moves_of_step hstep with
  | registers pkt src order key role hpkt => exact recorded_register hs
  | forwards pkt src order hpkt horder => exact recorded_forward hs
  | sweeps hpos =>
    exact
      { past := hs.past
        logged := fun key sess role p hsess => hs.logged key sess role p (lookup_sweep.1 hsess).1
        latest := fun key sess role p e hsess =>
          hs.latest key sess role p e (lookup_sweep.1 hsess).1 }
  | ticks =>
    exact
      { past := fun e he => Nat.le_succ_of_le (hs.past e he)
        logged := hs.logged
        latest := hs.latest }

/-! ## What a round deletes -/

theorem isFresh_iff {slot : Option RelayPeer} :
    s.isFresh ttl slot = true ↔ ∃ p, slot = some p ∧ s.now < p.updatedAt + ttl := by
  cases slot with
  | none | some p => simp [State.isFresh]

theorem not_stale_iff :
    s.stale ttl sess = false ↔ ∃ role p, sess.peer role = some p ∧ s.now < p.updatedAt + ttl := by
  have hbool : s.stale ttl sess = false ↔
      s.isFresh ttl sess.server = true ∨ s.isFresh ttl sess.client = true := by
    rw [State.stale]
    cases s.isFresh ttl sess.server <;> cases s.isFresh ttl sess.client <;> simp
  rw [hbool, isFresh_iff, isFresh_iff]
  constructor
  · rintro (⟨p, hp, hnow⟩ | ⟨p, hp, hnow⟩)
    · exact ⟨.server, p, hp, hnow⟩
    · exact ⟨.client, p, hp, hnow⟩
  · rintro ⟨role, p, hp, hnow⟩
    cases role with
    | server => exact .inl ⟨p, hp, hnow⟩
    | client => exact .inr ⟨p, hp, hnow⟩

theorem registeredLately_iff (hs : Recorded s) (hsess : s.sessions.lookup key = some sess) :
    s.RegisteredLately ttl key sess ↔ s.stale ttl sess = false := by
  rw [not_stale_iff]
  constructor
  · rintro ⟨role, p, hp, e, he, hreg, -, hnow⟩
    have hle := hs.latest key sess role p e hsess hp he hreg
    exact ⟨role, p, hp, by omega⟩
  · rintro ⟨role, p, hp, hnow⟩
    exact ⟨role, p, hp, _, hs.logged key sess role p hsess hp, rfl, rfl, hnow⟩

theorem lookup_sweep_eq_none_iff (hsess : s.sessions.lookup key = some sess) :
    (s.sweep ttl).sessions.lookup key = none ↔ s.stale ttl sess = true := by
  rw [Option.eq_none_iff_forall_ne_some]
  constructor
  · intro h
    by_contra hfresh
    exact h sess (lookup_sweep.2 ⟨hsess, Bool.eq_false_iff.2 hfresh⟩)
  · grind [lookup_sweep, Option.some.injEq]

theorem sparesUsed_iff_of_recorded (hs : Recorded s) :
    SparesUsed ttl s ↔ UsedRegistered ttl s := by
  refine forall_congr' fun key => forall_congr' fun sess => imp_congr_right fun hsess => ?_
  rw [lookup_sweep_eq_none_iff hsess, registeredLately_iff hs hsess]
  constructor
  · intro h hused
    by_contra hstale
    rw [Bool.not_eq_false] at hstale
    exact h hstale hused
  · intro h hstale hused
    rw [h hused] at hstale
    cases hstale

/-- **When the collector spares the sessions in use**, in every round. -/
theorem sparesUsed_iff (ttl : Nat) (acts : List Action) :
    AllSteps (step ttl) (OnSweep (SparesUsed ttl)) {} acts ↔
      AllSteps (step ttl) (OnSweep (UsedRegistered ttl)) {} acts := by
  refine allSteps_congr (fun _ _ _ hs hstep => recorded_step hs hstep) ?_ acts {} recorded_init
  intro s a t hs _
  cases a with
  | packet pkt src order | tick => exact Iff.rfl
  | sweep => exact sparesUsed_iff_of_recorded hs

/-! ## A session in the middle of a transfer -/

def busyRun : List Action :=
  [.packet (registration 1 0) (host 1) [], .packet (registration 1 1) (host 9) [], .tick, .tick,
    .packet [0] (host 9) [⟨some ⟨host 1, 0⟩, some ⟨host 9, 0⟩⟩]]

theorem busySession_swept :
    ∃ s, run (step 2) {} busyRun = some s ∧ s.sent = 1 ∧
      (s.sweep 2).sessions.lookup (replicate 16 1) = none ∧ ¬ SparesUsed 2 s := by
  refine ⟨_, rfl, rfl, by decide, fun h => ?_⟩
  exact h (replicate 16 1) ⟨some ⟨host 1, 0⟩, some ⟨host 9, 0⟩⟩ (by decide) (by decide)
    (by decide)

end NatProxy.Signaling.Relay
