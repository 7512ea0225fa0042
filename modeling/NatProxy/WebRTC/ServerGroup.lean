import Mathlib.Data.List.Basic

/-!
# Groups of peer connections on the server

A `ServerGroup` holds one `Server` for each peer connection (`golib/webrtc/group.go`).
`AcceptAnswers` compares the numbers of answers and servers and then sets the remote descriptions
one by one, up to the first error. What is assumed of the WebRTC library is in `Pion`: a peer
connection that is closed or has a remote description refuses a second one. A refusal need not leave
the connection as it was: an answer that can be parsed is set first and checked then.

A failed call leaves the group as it was only if the numbers differ or the very first answer is
refused before it is set (`acceptAnswers_allOrNothing_iff`); otherwise the group refuses every later
list (`secondAnswer_malformed`).
-/

namespace NatProxy.WebRTC.Group

open List

/-- The remote description of the peer connection, and whether it was stopped. -/
structure Server where
  remote : Option String := none
  closed : Bool := false
deriving DecidableEq, Repr

/-- `SetRemoteDescription` of the WebRTC library: its error, and the peer connection afterwards,
which an error may leave changed. -/
structure Pion where
  setRemoteDescription : Server → String → Option String × Server
  set_of_ok : ∀ srv answer, (setRemoteDescription srv answer).1 = none →
    (setRemoteDescription srv answer).2 = { srv with remote := some answer }
  /-- A connection that is closed or has a description refuses another one and keeps what it has. -/
  refused : ∀ srv answer, srv.closed = true ∨ srv.remote ≠ none →
    (setRemoteDescription srv answer).1 ≠ none ∧ (setRemoteDescription srv answer).2 = srv

/-- The answer is taken by a peer connection that has had none. -/
def Pion.WellFormed (pion : Pion) (answer : String) : Prop :=
  (pion.setRemoteDescription {} answer).1 = none

/-- `AcceptAnswer`: its error, and the server afterwards. -/
def Server.acceptAnswer (pion : Pion) (srv : Server) (sdpAnswer : String) :
    Option String × Server :=
  let (err, srv) := pion.setRemoteDescription srv sdpAnswer
  (err.map ("set remote description: " ++ ·), srv)

/-- `Stop` of one server. -/
def Server.stop (srv : Server) : Server := { srv with closed := true }

abbrev ServerGroup := List Server

/-- The number of peer connections: at least one and at most `maxPeerConnections`. -/
def groupSize (npc : Nat) : Nat :=
  if npc = 0 then 1 else min npc 8

/-- A successful `StartServerGroup`. -/
def startServerGroup (npc : Nat) : ServerGroup := replicate (groupSize npc) {}

/-- `AcceptAnswers` from peer connection number `i` on: its error, and the servers afterwards. -/
def acceptFrom (pion : Pion) : Nat → ServerGroup → List String → Option String × ServerGroup
  | i, srv :: servers, answer :: answers =>
    match srv.acceptAnswer pion answer with
    | (some err, srv) =>
      (some ("accept answer PC " ++ toString i ++ ": " ++ err), srv :: servers)
    | (none, srv) =>
      let (err, servers) := acceptFrom pion (i + 1) servers answers
      (err, srv :: servers)
  | _, servers, _ => (none, servers)

/-- `ServerGroup.AcceptAnswers`: its error, and the group afterwards. -/
def acceptAnswers (pion : Pion) (servers : ServerGroup) (answers : List String) :
    Option String × ServerGroup :=
  if answers.length ≠ servers.length then
    (some ("expected " ++ toString servers.length ++ " answers, got " ++ toString answers.length),
      servers)
  else
    acceptFrom pion 0 servers answers

/-- `ServerGroup.Stop`. -/
def stop (servers : ServerGroup) : ServerGroup := servers.map Server.stop

/-! ## One answer -/

/-- The server takes the answer. -/
def Server.Accepts (pion : Pion) (srv : Server) (answer : String) : Prop :=
  (pion.setRemoteDescription srv answer).1 = none

/-- The server refuses the answer, and is as it was. -/
def Server.Refuses (pion : Pion) (srv : Server) (answer : String) : Prop :=
  (pion.setRemoteDescription srv answer).1 ≠ none ∧
    (pion.setRemoteDescription srv answer).2 = srv

instance (pion : Pion) (srv : Server) (answer : String) : Decidable (srv.Accepts pion answer) :=
  inferInstanceAs (Decidable (_ = _))

instance (pion : Pion) (srv : Server) (answer : String) : Decidable (srv.Refuses pion answer) :=
  inferInstanceAs (Decidable (_ ∧ _))

variable {pion : Pion} {srv : Server} {answer : String}

theorem acceptAnswer_of_accepts (h : srv.Accepts pion answer) :
    srv.acceptAnswer pion answer = (none, { srv with remote := some answer }) := by
  have hset := pion.set_of_ok srv answer h
  simp only [Server.acceptAnswer, hset, show _ = none from h, Option.map_none]

theorem acceptAnswer_of_not_accepts (h : ¬ srv.Accepts pion answer) :
    ∃ err, srv.acceptAnswer pion answer = (some err, (pion.setRemoteDescription srv answer).2) := by
  obtain ⟨err, herr⟩ := Option.ne_none_iff_exists'.mp h
  exact ⟨"set remote description: " ++ err, by
    simp only [Server.acceptAnswer, herr, Option.map_some]⟩

/-- A server that takes an answer had none and is not stopped. -/
theorem Server.Accepts.unused (h : srv.Accepts pion answer) :
    srv.closed = false ∧ srv.remote = none := by
  constructor
  · by_contra hclosed
    exact (pion.refused srv answer (.inl (by simpa using hclosed))).1 h
  · by_contra hset
    exact (pion.refused srv answer (.inr hset)).1 h

/-! ## All answers -/

/-- Every server takes its answer. -/
def AllAccepted (pion : Pion) (servers : ServerGroup) (answers : List String) : Prop :=
  ∀ p ∈ servers.zip answers, p.1.Accepts pion p.2

/-- The first server refuses its answer before it is set. -/
def FirstRefused (pion : Pion) (servers : ServerGroup) (answers : List String) : Prop :=
  ∃ p, (servers.zip answers).head? = some p ∧ p.1.Refuses pion p.2

instance (pion : Pion) (servers : ServerGroup) (answers : List String) :
    Decidable (AllAccepted pion servers answers) :=
  inferInstanceAs (Decidable (∀ p ∈ servers.zip answers, p.1.Accepts pion p.2))

instance (pion : Pion) (servers : ServerGroup) (answers : List String) :
    Decidable (FirstRefused pion servers answers) :=
  match h : (servers.zip answers).head? with
  | none => isFalse fun ⟨_, hp, _⟩ => by rw [h] at hp; cases hp
  | some p =>
    decidable_of_iff (p.1.Refuses pion p.2)
      ⟨fun hrefuses => ⟨p, h, hrefuses⟩,
        fun ⟨_, hq, hrefuses⟩ => by rw [h] at hq; cases hq; exact hrefuses⟩

theorem acceptFrom_eq_none_iff (pion : Pion) (servers : ServerGroup) :
    ∀ (answers : List String) (i : Nat),
      (acceptFrom pion i servers answers).1 = none ↔ AllAccepted pion servers answers := by
  induction servers with
  | nil =>
    intro answers i
    rw [acceptFrom.eq_def]
    simp [AllAccepted]
  | cons srv servers ih =>
    intro answers i
    cases answers with
    | nil =>
      rw [acceptFrom.eq_def]
      simp [AllAccepted]
    | cons answer answers =>
      have hsplit : AllAccepted pion (srv :: servers) (answer :: answers) ↔
          srv.Accepts pion answer ∧ AllAccepted pion servers answers := by
        simp only [AllAccepted, zip_cons_cons, forall_mem_cons]
      rw [hsplit, acceptFrom]
      by_cases hfirst : srv.Accepts pion answer
      · rw [acceptAnswer_of_accepts hfirst]
        exact (ih answers (i + 1)).trans (and_iff_right hfirst).symm
      · obtain ⟨err, herr⟩ := acceptAnswer_of_not_accepts hfirst
        rw [herr]
        exact iff_of_false (Option.some_ne_none _) fun h => hfirst h.1

theorem acceptFrom_eq_self_iff (pion : Pion) (servers : ServerGroup) (answers : List String)
    (i : Nat) :
    (acceptFrom pion i servers answers).2 = servers ↔
      servers.zip answers = [] ∨ FirstRefused pion servers answers := by
  cases servers with
  | nil =>
    rw [acceptFrom.eq_def]
    simp
  | cons srv servers =>
    cases answers with
    | nil =>
      rw [acceptFrom.eq_def]
      simp
    | cons answer answers =>
      have hsplit : FirstRefused pion (srv :: servers) (answer :: answers) ↔
          srv.Refuses pion answer := by
        simp [FirstRefused]
      rw [hsplit, acceptFrom]
      by_cases hfirst : srv.Accepts pion answer
      · rw [acceptAnswer_of_accepts hfirst]
        -- the first server has a remote description now, and had none before
        refine iff_of_false (fun h => ?_) ?_
        · have hremote := congrArg Server.remote (cons.inj h).1
          rw [hfirst.unused.2] at hremote
          cases hremote
        · rintro (hempty | hrefuses)
          · cases hempty
          · exact hrefuses.1 hfirst
      · obtain ⟨err, herr⟩ := acceptAnswer_of_not_accepts hfirst
        rw [herr]
        constructor
        · exact fun h => .inr ⟨hfirst, (cons.inj h).1⟩
        · rintro (hempty | hrefuses)
          · cases hempty
          · exact congrArg (· :: servers) hrefuses.2

/-! ## Stopped groups -/

def Stopped (servers : ServerGroup) : Prop := ∀ srv ∈ servers, srv.closed = true

instance (servers : ServerGroup) : Decidable (Stopped servers) :=
  inferInstanceAs (Decidable (∀ srv ∈ servers, srv.closed = true))

theorem stopped_stop (servers : ServerGroup) : Stopped (stop servers) := by
  intro srv hsrv
  obtain ⟨old, -, rfl⟩ := mem_map.1 hsrv
  rfl

variable {servers : ServerGroup}

theorem Stopped.acceptFrom (h : Stopped servers) (pion : Pion)
    (answers : List String) (i : Nat) : (acceptFrom pion i servers answers).2 = servers := by
  rw [acceptFrom_eq_self_iff]
  cases hzip : servers.zip answers with
  | nil => exact .inl rfl
  | cons p rest =>
    have hmem : p ∈ servers.zip answers := by rw [hzip]; exact mem_cons_self
    have hclosed := h p.1 (of_mem_zip hmem).1
    exact .inr ⟨p, by rw [hzip]; rfl, pion.refused p.1 p.2 (.inl hclosed)⟩

theorem Stopped.acceptAnswers (h : Stopped servers) (pion : Pion) (answers : List String) :
    (Group.acceptAnswers pion servers answers).2 = servers := by
  rw [Group.acceptAnswers]
  split
  · rfl
  · exact h.acceptFrom pion answers 0

/-! ## Fresh groups -/

/-- The group has servers, and none of them was stopped or given an answer. -/
def Fresh (servers : ServerGroup) : Prop := servers ≠ [] ∧ ∀ srv ∈ servers, srv = {}

theorem fresh_startServerGroup (npc : Nat) : Fresh (startServerGroup npc) := by
  constructor
  · have hpos : groupSize npc ≠ 0 := by
      rw [groupSize]
      split
      · exact Nat.one_ne_zero
      · omega
    exact fun h => hpos ((replicate_eq_nil_iff _).1 h)
  · exact fun srv hsrv => eq_of_mem_replicate hsrv

theorem Fresh.accepts (h : Fresh servers) {answers : List String}
    (hlen : answers.length = servers.length) (hformed : ∀ answer ∈ answers, pion.WellFormed answer)
    : (acceptAnswers pion servers answers).1 = none := by
  rw [acceptAnswers, if_neg (not_not.2 hlen), acceptFrom_eq_none_iff]
  intro p hp
  obtain ⟨hsrv, hanswer⟩ := of_mem_zip hp
  rw [h.2 p.1 hsrv]
  exact hformed p.2 hanswer

/-! ## All or nothing -/

/-- A call that returns an error has set no remote description. -/
def AllOrNothing (pion : Pion) (servers : ServerGroup) (answers : List String) : Prop :=
  (acceptAnswers pion servers answers).1 ≠ none →
    (acceptAnswers pion servers answers).2 = servers ∧
      ∀ later, (acceptAnswers pion servers later).1 = none →
        (acceptAnswers pion (acceptAnswers pion servers answers).2 later).1 = none

theorem unchanged_of_error_iff (pion : Pion) (servers : ServerGroup) (answers : List String) :
    ((acceptAnswers pion servers answers).1 ≠ none →
        (acceptAnswers pion servers answers).2 = servers) ↔
      answers.length ≠ servers.length ∨ AllAccepted pion servers answers ∨
        FirstRefused pion servers answers := by
  rw [acceptAnswers]
  by_cases hlen : answers.length ≠ servers.length
  · rw [if_pos hlen]
    exact iff_of_true (fun _ => rfl) (.inl hlen)
  · rw [if_neg hlen, ne_eq, acceptFrom_eq_none_iff, acceptFrom_eq_self_iff]
    constructor
    · intro h
      by_cases hall : AllAccepted pion servers answers
      · exact .inr (.inl hall)
      · rcases h hall with hempty | hfirst
        · refine absurd (fun p hp => ?_) hall
          rw [hempty] at hp
          cases hp
        · exact .inr (.inr hfirst)
    · grind

/-- **When `AcceptAnswers` is all or nothing.** -/
theorem acceptAnswers_allOrNothing_iff (pion : Pion) (servers : ServerGroup)
    (answers : List String) :
    AllOrNothing pion servers answers ↔
      answers.length ≠ servers.length ∨ AllAccepted pion servers answers ∨
        FirstRefused pion servers answers := by
  rw [← unchanged_of_error_iff]
  refine imp_congr_right fun _ => ⟨And.left, fun h => ⟨h, fun later hlater => ?_⟩⟩
  rw [h]
  exact hlater

/-- It stands for the complete answer of a client. -/
def demoAnswer : String := "v=0\r\na=ice-ufrag:uf\r\na=ice-pwd:pw\r\n"

/-- A library that parses an answer, sets it, and only then looks for the ICE credentials. The empty
text is parsed, as a description without any; of the others it takes one. -/
def demoPion : Pion where
  setRemoteDescription srv answer :=
    if srv.closed then (some "InvalidStateError: connection closed", srv)
    else if answer ≠ "" ∧ answer ≠ demoAnswer then (some "sdp: invalid syntax", srv)
    else if srv.remote ≠ none then
      (some "InvalidModificationError: invalid proposed signaling state transition", srv)
    else if answer = "" then
      (some "SetRemoteDescription called with no ice-ufrag", { srv with remote := some answer })
    else (none, { srv with remote := some answer })
  set_of_ok srv answer h := by
    split_ifs at h ⊢
    rfl
  refused srv answer h := by
    split_ifs with hclosed hparse hset hufrag
    · exact ⟨Option.some_ne_none _, rfl⟩
    · exact ⟨Option.some_ne_none _, rfl⟩
    · exact ⟨Option.some_ne_none _, rfl⟩
    · exact (h.elim hclosed hset).elim
    · exact (h.elim hclosed hset).elim

/-- **The second answer is empty.** It is set and then refused, after the first one was set. Now the
group refuses what it would have taken before. -/
theorem secondAnswer_malformed :
    let failed := acceptAnswers demoPion (startServerGroup 2) [demoAnswer, ""]
    failed.1 = some ("accept answer PC 1: set remote description: " ++
        "SetRemoteDescription called with no ice-ufrag") ∧
      failed.2 = [{ remote := some demoAnswer }, { remote := some "" }] ∧
      (acceptAnswers demoPion (startServerGroup 2) [demoAnswer, demoAnswer]).1 = none ∧
      (acceptAnswers demoPion failed.2 [demoAnswer, demoAnswer]).1 =
        some ("accept answer PC 0: set remote description: " ++
          "InvalidModificationError: invalid proposed signaling state transition") ∧
      (acceptAnswers demoPion (startServerGroup 1) [""]).2 = [{ remote := some "" }] := by
  decide

end NatProxy.WebRTC.Group
