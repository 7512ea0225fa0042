import NatProxy.WebRTC.ReliableInvariant

/-!
# Giving up a frame

`retransmitLoop` drops a frame from `unacked` when its timeout has passed after ten retransmissions,
and goes on. The connection is meant to be failed from then on (`FailsLoudly`): the done channel is
closed, or every later `Read` and `Write` returns an error. Nothing in the loop does either, and a
`Read` with an open done channel waits or returns data, so this is the case exactly when the done
channel was closed before (`failsLoudly_iff`). In `lostRun_silent` the first frame is dropped, and
the receiver waits for it while both ends look alive.

A frame that is given up has been sent again ten times (`resent_of_givenUp`), so a frame that is
acknowledged before its tenth retransmission is never given up (`failsLoudly_of_ackedInTime`).
-/

namespace NatProxy.WebRTC.ReliableRTP

open Lib List

/-! ## A frame at a tick -/

def ReliableFrame.expired (now : Nat) (frame : ReliableFrame) : Bool :=
  now - frame.sentAt > reliableRTOInit * (1 <<< frame.retries)

def ReliableFrame.exhausted (frame : ReliableFrame) : Bool := frame.retries ≥ reliableMaxRetries

/-- What a tick of `retransmitLoop` makes of a frame. -/
def ReliableFrame.tick (now : Nat) (frame : ReliableFrame) : Option ReliableFrame :=
  if frame.expired now then
    if frame.exhausted then none
    else some { frame with retries := frame.retries + 1, sentAt := now }
  else some frame

variable {frame : ReliableFrame}

theorem tick_eq_none_iff {now : Nat} :
    frame.tick now = none ↔ frame.expired now = true ∧ frame.exhausted = true := by
  rw [ReliableFrame.tick]
  split_ifs with hexpired hexhausted
  · exact ⟨fun _ => ⟨hexpired, hexhausted⟩, fun _ => rfl⟩
  · exact ⟨fun h => (nomatch h), fun h => absurd h.2 hexhausted⟩
  · exact ⟨fun h => (nomatch h), fun h => absurd h.1 hexpired⟩

theorem lookup_retransmitOne (now : Nat)
    (st : (AList fun _ : UInt16 => ReliableFrame) × List Tagged) (k seq : UInt16) :
    (retransmitOne now st k).1.lookup seq =
      if seq = k then (st.1.lookup seq).bind (ReliableFrame.tick now) else st.1.lookup seq := by
  rw [retransmitOne]
  cases hk : st.1.lookup k with
  | none =>
    split_ifs with hseq
    · rw [hseq, hk]
      rfl
    · rfl
  | some frame =>
    by_cases hseq : seq = k
    · subst hseq
      rw [if_pos rfl, hk, Option.bind_some, ReliableFrame.tick, ReliableFrame.expired,
        ReliableFrame.exhausted]
      simp only [decide_eq_true_eq]
      split_ifs with hexpired hexhausted
      · exact AList.lookup_erase _ _
      · exact AList.lookup_insert _
      · exact hk
    · rw [if_neg hseq]
      dsimp only
      split_ifs with hexpired hexhausted
      · exact AList.lookup_erase_ne hseq
      · exact AList.lookup_insert_ne hseq
      · rfl

theorem lookup_foldl_retransmitOne (now : Nat) {keys : List UInt16} (hkeys : keys.Nodup)
    (st : (AList fun _ : UInt16 => ReliableFrame) × List Tagged) (seq : UInt16) :
    (keys.foldl (retransmitOne now) st).1.lookup seq =
      if seq ∈ keys then (st.1.lookup seq).bind (ReliableFrame.tick now) else st.1.lookup seq := by
  induction keys generalizing st with
  | nil => rfl
  | cons k keys ih =>
    obtain ⟨hk, hrest⟩ := nodup_cons.mp hkeys
    rw [foldl_cons, ih hrest, lookup_retransmitOne]
    by_cases hseq : seq = k
    · subst hseq
      rw [if_neg hk, if_pos rfl, if_pos mem_cons_self]
    · rw [if_neg hseq]
      simp only [mem_cons, hseq, false_or]

theorem lookup_retransmit (e : Endpoint) (now : Nat) (seq : UInt16) :
    (e.retransmit now).1.unacked.lookup seq =
      (e.unacked.lookup seq).bind (ReliableFrame.tick now) := by
  have hfold := lookup_foldl_retransmitOne now e.unacked.keys_nodup (e.unacked, []) seq
  rw [Endpoint.retransmit]
  refine hfold.trans ?_
  split_ifs with hmem
  · rfl
  · -- a number that is not in the map stays out of it
    have hnone : e.unacked.lookup seq = none :=
      AList.lookup_eq_none.mpr fun h => hmem (AList.mem_keys.mp h)
    rw [hnone]
    rfl

/-! ## A connection that has failed -/

/-- `Read` and `Write` return an error, whatever the inner channel does. -/
def Endpoint.CallsFail (e : Endpoint) : Prop :=
  (∀ n, ∃ e', e.read n = some (e', .eof)) ∧
    ∀ now p innerOk, ∃ call, (e.write now p innerOk).1.writes.getLast? = some call ∧ call.ok = false

/-- The connection of `s` is failed from now on. -/
def FailedFrom (net : Net) (s : Side) : Prop :=
  ∀ later, Reaches step anyStep net later →
    (later.ep s).done = true ∨ (later.ep s).CallsFail

variable {e : Endpoint}

theorem done_of_eof {e' : Endpoint} {n : Nat} (h : e.read n = some (e', .eof)) : e.done = true := by
  rw [Endpoint.read] at h
  by_cases hpending : e.readPending ≠ []
  · rw [if_pos hpending] at h
    cases h
  · grind

variable {net : Net} {s : Side}

theorem done_set {x : Side} {r : Endpoint × List Tagged}
    (hr : (net.ep x).done = true → r.1.done = true) (h : (net.ep s).done = true) :
    ((net.set x r).ep s).done = true := by
  rcases Side.eq_or_eq_peer x s with rfl | rfl
  · rw [Net.ep_set_self]
    exact hr h
  · rw [Net.ep_set_peer]
    exact h

theorem done_step {net' : Net} {act : Action} (h : (net.ep s).done = true)
    (hstep : step net act = some net') : (net'.ep s).done = true := by
  cases step_cases hstep with
  | write x p innerOk => exact done_set (fun hx => hx) h
  | read x n e hr =>
    refine done_set (fun hx => ?_) h
    cases hr with
    | pending | eof | takes d hpend hd => exact hx
  | poll x i e _ he =>
    refine done_set (fun hx => ?_) h
    rw [Endpoint.poll, if_pos hx] at he
    cases he
    exact hx
  | handle x pkt hpkt => exact done_set (fun hx => (handle_sender _ pkt).1.trans hx) h
  | retransmit x => exact done_set (fun hx => hx) h
  | close x => exact done_set (fun _ => rfl) h
  | tick d =>
    rw [Net.ep_tick]
    exact h

/-- **Only a closed done channel makes a connection fail.** -/
theorem failedFrom_iff : FailedFrom net s ↔ (net.ep s).done = true := by
  constructor
  · intro h
    rcases h net Relation.ReflTransGen.refl with hdone | hfail
    · exact hdone
    · obtain ⟨e', hread⟩ := hfail.1 0
      exact done_of_eof hread
  · intro hdone later hlater
    refine .inl (hlater.invariant (fun net => (net.ep s).done = true) hdone ?_)
    intro net act net' h _ hstep
    exact done_step h hstep

/-! ## Giving up -/

/-- When a tick takes a frame out of `unacked`, the connection is failed from then on. -/
def FailsLoudly (net : Net) (act : Action) : Prop :=
  ∀ s net', act = .retransmit s → step net act = some net' →
    ∀ seq frame, (net.ep s).unacked.lookup seq = some frame →
      (net'.ep s).unacked.lookup seq = none → FailedFrom net' s

/-- A frame whose timeout has passed still has retries, or the done channel is closed. -/
def RetriesLeft (net : Net) : Action → Prop
  | .retransmit s => (net.ep s).done = true ∨
      ∀ seq frame, (net.ep s).unacked.lookup seq = some frame →
        frame.expired net.now = true → frame.retries < reliableMaxRetries
  | _ => True

theorem exhausted_eq_false_iff : ¬ frame.exhausted = true ↔ frame.retries < reliableMaxRetries := by
  rw [ReliableFrame.exhausted, decide_eq_true_eq, ge_iff_le, Nat.not_le]

variable {seq : UInt16}

theorem givenUp_iff {now : Nat} (hframe : e.unacked.lookup seq = some frame) :
    (e.retransmit now).1.unacked.lookup seq = none ↔
      frame.expired now = true ∧ frame.exhausted = true := by
  rw [lookup_retransmit, hframe, Option.bind_some, tick_eq_none_iff]

theorem failsLoudly_step_iff (net : Net) (act : Action) :
    FailsLoudly net act ↔ RetriesLeft net act := by
  cases act with
  | retransmit s =>
    have hnext : step net (.retransmit s) =
        some (net.set s ((net.ep s).retransmit net.now)) := rfl
    constructor
    · intro h
      by_cases hdone : (net.ep s).done = true
      · exact .inl hdone
      · refine .inr fun seq frame hframe hexpired => ?_
        refine exhausted_eq_false_iff.mp fun hexhausted => ?_
        have hgone : ((net.set s ((net.ep s).retransmit net.now)).ep s).unacked.lookup seq =
            none := by
          rw [Net.ep_set_self]
          exact (givenUp_iff hframe).mpr ⟨hexpired, hexhausted⟩
        -- the tick itself closes nothing
        have hfailed := failedFrom_iff.mp (h s _ rfl hnext seq frame hframe hgone)
        rw [Net.ep_set_self] at hfailed
        exact hdone hfailed
    · intro h s' net' hact hstep seq frame hframe hgone
      cases hact
      cases hnext.symm.trans hstep
      rw [Net.ep_set_self] at hgone
      obtain ⟨hexpired, hexhausted⟩ := (givenUp_iff hframe).mp hgone
      rcases h with hdone | hleft
      · refine failedFrom_iff.mpr ?_
        rw [Net.ep_set_self]
        exact hdone
      · exact absurd hexhausted (exhausted_eq_false_iff.mpr (hleft seq frame hframe hexpired))
  | _ => exact ⟨fun _ => trivial, fun _ _ _ hact => nomatch hact⟩

/-- **A run never gives up silently** exactly if, at each tick with an open done channel, overdue
frames have retries left. -/
theorem failsLoudly_iff (acts : List Action) :
    AllSteps step FailsLoudly {} acts ↔ AllSteps step RetriesLeft {} acts := by
  have hinv : ∀ (net : Net) (act : Action) (net' : Net), True → step net act = some net' → True :=
    fun _ _ _ _ _ => trivial
  exact allSteps_congr hinv (fun net act _ _ _ => failsLoudly_step_iff net act) acts {} trivial

/-! ## Retransmissions -/

/-- How often the frame of a `Write` call has been sent again. -/
def resent (origin : Nat) (sent : List Tagged) : Nat :=
  sent.countP fun pkt => pkt.origin = origin ∧ pkt.bytes[2]? = some reliableFlagRetransmit

theorem resent_append (origin : Nat) (sent more : List Tagged) :
    resent origin (sent ++ more) = resent origin sent + resent origin more :=
  countP_append

theorem resent_frame (h : 2 < frame.data.length) :
    resent frame.origin [⟨frame.data.set 2 reliableFlagRetransmit, frame.origin⟩] = 1 := by
  simp [resent, h]

/-- Each retry of a frame was sent. -/
def RetriesSent (unacked : AList fun _ : UInt16 => ReliableFrame) (sent : List Tagged) : Prop :=
  ∀ seq frame, unacked.lookup seq = some frame →
    2 < frame.data.length ∧ frame.retries ≤ resent frame.origin sent

variable {sent : List Tagged}

theorem RetriesSent.mono {unacked unacked' : AList fun _ : UInt16 => ReliableFrame}
    (h : RetriesSent unacked sent)
    (hsub : ∀ seq f, unacked'.lookup seq = some f → unacked.lookup seq = some f)
    (more : List Tagged) : RetriesSent unacked' (sent ++ more) := by
  intro seq frame hframe
  obtain ⟨hlength, hretries⟩ := h seq frame (hsub seq frame hframe)
  rw [resent_append]
  exact ⟨hlength, by omega⟩

theorem RetriesSent.write (h : RetriesSent e.unacked sent) (now : Nat) (p : Bytes) (innerOk : Bool)
    : RetriesSent (e.write now p innerOk).1.unacked (sent ++ (e.write now p innerOk).2) := by
  have hold := h.mono (fun _ _ hf => hf) (e.write now p innerOk).2
  intro seq frame hframe
  rcases (lookup_insert_eq_some_iff _ _ _ _ _).mp hframe with ⟨rfl, rfl⟩ | ⟨-, hframe⟩
  · exact ⟨by rw [length_encodeFrame]; show 2 < 3 + _; omega, Nat.zero_le _⟩
  · exact hold seq frame hframe

theorem RetriesSent.one {st : (AList fun _ : UInt16 => ReliableFrame) × List Tagged}
    (h : RetriesSent st.1 (sent ++ st.2)) (now : Nat) (k : UInt16) :
    RetriesSent (retransmitOne now st k).1 (sent ++ (retransmitOne now st k).2) := by
  rw [retransmitOne]
  cases hk : st.1.lookup k with
  | none => exact h
  | some frame =>
    dsimp only
    split_ifs with hexpired hexhausted
    · have hless := h.mono (fun seq f hf => ((lookup_erase_eq_some_iff _ k _ _).mp hf).2) []
      rwa [append_nil] at hless
    · obtain ⟨hlength, hretries⟩ := h k frame hk
      intro seq f hf
      rw [← append_assoc, resent_append]
      rcases (lookup_insert_eq_some_iff _ _ _ _ _).mp hf with ⟨rfl, rfl⟩ | ⟨-, hf⟩
      · -- one more retry, one more packet
        show 2 < frame.data.length ∧ frame.retries + 1 ≤
          resent frame.origin (sent ++ st.2) + resent frame.origin _
        rw [resent_frame hlength]
        exact ⟨hlength, Nat.succ_le_succ hretries⟩
      · obtain ⟨hlength', hretries'⟩ := h seq f hf
        exact ⟨hlength', by omega⟩
    · exact h

theorem RetriesSent.retransmit (h : RetriesSent e.unacked sent)
    (now : Nat) : RetriesSent (e.retransmit now).1.unacked (sent ++ (e.retransmit now).2) := by
  have hfold : ∀ (keys : List UInt16) (st : (AList fun _ : UInt16 => ReliableFrame) × List Tagged),
      RetriesSent st.1 (sent ++ st.2) →
        RetriesSent (keys.foldl (retransmitOne now) st).1
          (sent ++ (keys.foldl (retransmitOne now) st).2) := by
    intro keys
    induction keys with
    | nil => exact fun st h => h
    | cons k keys ih => exact fun st h => ih _ (h.one now k)
  apply hfold
  rwa [append_nil]

theorem retriesSent_set (h : ∀ x, RetriesSent (net.ep x).unacked (net.wire x))
    {r : Endpoint × List Tagged} (hr : RetriesSent r.1.unacked (net.wire s ++ r.2)) :
    ∀ x, RetriesSent ((net.set s r).ep x).unacked ((net.set s r).wire x) := by
  intro x
  rcases Side.eq_or_eq_peer s x with rfl | rfl
  · rw [Net.ep_set_self, Net.wire_set_self]
    exact hr
  · rw [Net.ep_set_peer, Net.wire_set_peer]
    exact h _

/-- **One step keeps the count of the retries.** -/
theorem retriesSent_step {net' : Net} {act : Action}
    (h : ∀ x, RetriesSent (net.ep x).unacked (net.wire x)) (hstep : step net act = some net') :
    ∀ x, RetriesSent (net'.ep x).unacked (net'.wire x) := by
  cases step_cases hstep with
  | write s p innerOk => exact retriesSent_set h ((h s).write net.now p innerOk)
  | read s n e hr =>
    refine retriesSent_set h ((h s).mono (fun seq f hf => ?_) [])
    rwa [← hr.sender_fields.2.1]
  | poll s i e _ he =>
    refine retriesSent_set h ((h s).mono (fun seq f hf => ?_) [])
    rwa [← (poll_fields he).2.1]
  | handle s pkt hpkt => exact retriesSent_set h ((h s).mono (handle_sender _ pkt).2 _)
  | retransmit s => exact retriesSent_set h ((h s).retransmit net.now)
  | close s => exact retriesSent_set h ((h s).mono (fun _ _ hf => hf) [])
  | tick d =>
    intro x
    rw [Net.ep_tick, Net.wire_tick]
    exact h x

theorem retriesSent_init (x : Side) :
    RetriesSent (({} : Net).ep x).unacked (({} : Net).wire x) := by
  intro seq frame hframe
  cases x <;> cases hframe

theorem resent_of_exhausted {unacked : AList fun _ : UInt16 => ReliableFrame}
    (h : RetriesSent unacked sent) (hframe : unacked.lookup seq = some frame)
    (hexhausted : frame.exhausted = true) : reliableMaxRetries ≤ resent frame.origin sent := by
  rw [ReliableFrame.exhausted, decide_eq_true_eq] at hexhausted
  exact Nat.le_trans hexhausted (h seq frame hframe).2

/-- **A frame that is given up has been sent again ten times.** -/
theorem resent_of_givenUp (hreach : Reachable anyStep net)
    (hframe : (net.ep s).unacked.lookup seq = some frame)
    (hgone : ((net.ep s).retransmit net.now).1.unacked.lookup seq = none) :
    reliableMaxRetries ≤ resent frame.origin (net.wire s) := by
  have hsent := hreach.invariant (fun net => ∀ x, RetriesSent (net.ep x).unacked (net.wire x))
    retriesSent_init fun _ _ _ h _ hstep => retriesSent_step h hstep
  exact resent_of_exhausted (hsent s) hframe ((givenUp_iff hframe).mp hgone).2

/-- Unacknowledged frames have been sent again fewer than ten times, or the done channel is closed.
-/
def AckedInTime (net : Net) : Prop :=
  ∀ s, (net.ep s).done = true ∨ ∀ seq frame, (net.ep s).unacked.lookup seq = some frame →
    resent frame.origin (net.wire s) < reliableMaxRetries

/-- **Acknowledged in time.** Such a run never gives up silently. -/
theorem failsLoudly_of_ackedInTime {acts : List Action} (h : AllStates step AckedInTime {} acts) :
    AllSteps step FailsLoudly {} acts := by
  refine allSteps_of_allStates (fun net => ∀ x, RetriesSent (net.ep x).unacked (net.wire x))
    (fun _ _ _ hsent hstep => retriesSent_step hsent hstep) ?_ acts {} retriesSent_init h
  intro net act hsent hacked
  rw [failsLoudly_step_iff]
  cases act with
  | retransmit s =>
    rcases hacked s with hdone | hfew
    · exact .inl hdone
    · refine .inr fun seq frame hframe _ => exhausted_eq_false_iff.mp fun hexhausted => ?_
      have hmany := resent_of_exhausted (hsent s) hframe hexhausted
      exact absurd (hfew seq frame hframe) (Nat.not_lt.mpr hmany)
  | _ => trivial

theorem failsLoudly_of_ackedInTime_exchange :
    AllSteps step FailsLoudly {} (exchangeRun ++ [.retransmit .a]) := by
  have hshort : ∀ net : Net, (∀ s, (net.wire s).length < 10) → AckedInTime net :=
    fun net h s => .inr fun _ _ _ => Nat.lt_of_le_of_lt countP_le_length (h s)
  apply failsLoudly_of_ackedInTime
  iterate 11
    refine ⟨hshort _ (by rintro (_ | _) <;> decide), fun t ht => ?_⟩
    cases ht
  exact hshort _ (by rintro (_ | _) <;> decide)

/-! ## A frame that is lost -/

def lostRun : List Action :=
  .write .a [1] true :: ((range 10).flatMap fun k =>
    [.tick (reliableRTOInit * (1 <<< k) + 1), .retransmit .a]) ++
      [.tick (reliableRTOInit * (1 <<< 10) + 1)]

def nextRun : List Action :=
  [.write .a [2] true, .poll .b 11, .handle .b, .poll .a 0, .handle .a]

/-- The unacknowledged frames, the acknowledged calls, the done channels, and whether a `Read`
waits. -/
def Net.look (net : Net) : List UInt16 × List Nat × (Bool × Bool) × (Bool × Bool) :=
  (net.epA.unacked.keys, net.epA.acked, (net.epA.done, net.epB.done),
    ((net.epA.read 1).isNone, (net.epB.read 1).isNone))

theorem lostRun_silent :
    ¬ AllSteps step FailsLoudly {} (lostRun ++ [.retransmit .a]) ∧
      (run step {} lostRun).map Net.look = some ([0], [], (false, false), (true, true)) ∧
      (run step {} (lostRun ++ .retransmit .a :: nextRun)).map Net.look =
        some ([], [1], (false, false), (true, true)) := by
  refine ⟨fun h => ?_, ?_, ?_⟩
  · have hframe : (run step {} lostRun).map (fun net => (net.epA.done,
        (net.epA.unacked.lookup 0).map fun frame => (frame.expired net.now, frame.exhausted))) =
          some (false, some (true, true)) := by decide +kernel
    obtain ⟨net, hrun, hnet⟩ := Option.map_eq_some_iff.mp hframe
    obtain ⟨hdone, hfound⟩ := Prod.mk.inj hnet
    obtain ⟨frame, hlookup, hspent⟩ := Option.map_eq_some_iff.mp hfound
    obtain ⟨hexpired, hexhausted⟩ := Prod.mk.inj hspent
    -- the tick after the run does not meet the condition
    have hlast := (AllSteps.of_append h hrun _ rfl).1
    rcases (failsLoudly_step_iff net (.retransmit .a)).mp hlast with hclosed | hleft
    · exact Bool.false_ne_true (hdone.symm.trans hclosed)
    · exact exhausted_eq_false_iff.mpr (hleft 0 frame hlookup hexpired) hexhausted
  · decide +kernel
  · decide +kernel

end NatProxy.WebRTC.ReliableRTP
