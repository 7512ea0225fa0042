import NatProxy.WebRTC.ReliableStream
import NatProxy.WebRTC.ReliableWindow

/-!
# Soundness of acknowledgements

A frame that left `unacked` because its acknowledgement arrived is meant to be in the hands of the
receiver: taken by `Read`, or held in `readBuf` (`AckSound`). `receiveLoop` acknowledges every
frame, also one that it drops because `readBuf` is full (`fullRun_not_ackSound`).

Acknowledgements are sound in every run that avoids three situations (`AckOk`): a data frame that
the receiver does not have yet arrives at a full window; a data frame is stored over another frame
with the same 16-bit number; an acknowledgement removes another frame with the same 16-bit number
(`ackSound_of_reachable`).
-/

namespace NatProxy.WebRTC.ReliableRTP

open Lib List

/-- `Read` took the payload of the `Write` call with this number, or it is held in `readBuf`. -/
def Kept (ws : List WriteCall) (e : Endpoint) (origin : Nat) : Prop :=
  ∃ d : Tagged, d.origin = origin ∧ FromWrite ws d ∧
    (d ∈ e.taken ∨ ∃ seq, e.readBuf.lookup seq = some d)

/-- Soundness of the acknowledgements that arrived at `s`. The payloads taken by `Read` are what it
returned, followed by `readPending`. -/
structure AckSound (net : Net) (s : Side) : Prop where
  stream : (net.ep s.peer).returned ++ (net.ep s.peer).readPending =
    ((net.ep s.peer).taken.map Tagged.bytes).flatten
  kept : ∀ origin ∈ (net.ep s).acked, Kept (net.ep s).writes (net.ep s.peer) origin

/-- Payloads fit the receive buffer, and none of the three situations occurs. -/
def AckOk (net : Net) : Action → Prop
  | .write _ p _ => reliableHeaderSize + p.length ≤ receiveBufSize
  | .handle s => ∀ pkt, (net.ep s).inHand = some pkt →
      (isDataFrame pkt.bytes = true →
        if (net.ep s).readBuf.keys.length < reliableWindowSize then
          ∀ d, (net.ep s).readBuf.lookup (frameSeq pkt.bytes) = some d → d.origin = pkt.origin
        else Kept (net.ep s.peer).writes (net.ep s) pkt.origin) ∧
      (isAckFrame pkt.bytes = true →
        ∀ f, (net.ep s).unacked.lookup (frameSeq pkt.bytes) = some f → f.origin = pkt.origin)
  | _ => True

variable {net : Net}

theorem fitsOk_of_ackOk {act : Action} (h : AckOk net act) : FitsOk net act := by
  cases act <;> first | exact h | trivial

theorem isAckFrame_encodeFrame_ack (seq : UInt16) :
    isAckFrame (encodeFrame seq reliableFlagAck []) = true := rfl

variable {seq : UInt16}

theorem isAckFrame_encodeFrame_data {flags : UInt8} (payload : Bytes)
    (hflags : flags = reliableFlagData ∨ flags = reliableFlagRetransmit) :
    isAckFrame (encodeFrame seq flags payload) = false := by
  rcases hflags with rfl | rfl <;> rfl

/-! ## What the receiver has, it keeps -/

variable {ws : List WriteCall} {e : Endpoint} {origin : Nat}

theorem Kept.mono {ws' : List WriteCall} (h : Kept ws e origin)
    (hws : ws <+: ws') : Kept ws' e origin := by
  obtain ⟨d, horigin, hd, hin⟩ := h
  exact ⟨d, horigin, hd.mono hws, hin⟩

variable {e' : Endpoint}

theorem Kept.of_eq (h : Kept ws e origin)
    (hheld : e'.readBuf = e.readBuf) (htaken : e'.taken = e.taken) : Kept ws e' origin := by
  obtain ⟨d, horigin, hd, hin⟩ := h
  exact ⟨d, horigin, hd, by rw [hheld, htaken]; exact hin⟩

theorem Kept.read (h : Kept ws e origin) {n : Nat} (hr : ReadCase e n e') : Kept ws e' origin := by
  cases hr with
  | pending => exact h.of_eq rfl rfl
  | eof => exact h
  | takes d₀ hpend hlook =>
    obtain ⟨d, horigin, hd, htaken | ⟨seq, hseq⟩⟩ := h
    · exact ⟨d, horigin, hd, .inl (mem_append_left _ htaken)⟩
    · refine ⟨d, horigin, hd, ?_⟩
      by_cases heq : seq = e.readSeq
      · grind
      · exact .inr ⟨seq, (lookup_erase_eq_some_iff _ _ _ _).2 ⟨heq, hseq⟩⟩

theorem Kept.handleData (h : Kept ws e origin)
    {d : Tagged} (hd : FromWrite ws d) (hover : e.readBuf.keys.length < reliableWindowSize →
      ∀ d', e.readBuf.lookup seq = some d' → d'.origin = d.origin) :
    Kept ws (e.handleData seq d).1 origin := by
  obtain ⟨d', horigin, hd', htaken | ⟨seq', hseq'⟩⟩ := h
  · exact ⟨d', horigin, hd', .inl htaken⟩
  · by_cases hroom : e.readBuf.keys.length < reliableWindowSize
    · by_cases heq : seq' = seq
      · subst heq
        -- the payload stored here is the one of the same call
        refine ⟨d, ?_, hd, .inr ⟨seq', ?_⟩⟩
        · rw [← hover hroom d' hseq', horigin]
        · simp only [Endpoint.handleData, if_pos hroom, AList.lookup_insert]
      · refine ⟨d', horigin, hd', .inr ⟨seq', ?_⟩⟩
        simp only [Endpoint.handleData, if_pos hroom]
        exact (lookup_insert_eq_some_iff _ _ _ _ _).2 (.inr ⟨heq, hseq'⟩)
    · refine ⟨d', horigin, hd', .inr ⟨seq', ?_⟩⟩
      simp only [Endpoint.handleData, if_neg hroom]
      exact hseq'

theorem kept_handleData {d : Tagged} (hd : FromWrite ws d)
    (hfull : ¬ e.readBuf.keys.length < reliableWindowSize → Kept ws e d.origin) :
    Kept ws (e.handleData seq d).1 d.origin := by
  by_cases hroom : e.readBuf.keys.length < reliableWindowSize
  · refine ⟨d, rfl, hd, .inr ⟨seq, ?_⟩⟩
    simp only [Endpoint.handleData, if_pos hroom, AList.lookup_insert]
  · exact (hfull hroom).handleData hd fun h => absurd h hroom

/-! ## The acknowledgement invariant -/

/-- Every acknowledgement that is on its way to `s` or was applied there names a frame that the
receiver has. -/
structure AcksKept (net : Net) (s : Side) : Prop where
  wire : ∀ pkt ∈ net.wire s.peer, isAckFrame pkt.bytes = true →
    Kept (net.ep s).writes (net.ep s.peer) pkt.origin
  hand : ∀ pkt, (net.ep s).inHand = some pkt → isAckFrame pkt.bytes = true →
    Kept (net.ep s).writes (net.ep s.peer) pkt.origin
  acked : ∀ origin ∈ (net.ep s).acked, Kept (net.ep s).writes (net.ep s.peer) origin

theorem AcksKept.set (h : ∀ x, AcksKept net x) (s : Side) {r : Endpoint × List Tagged}
    (hws : (net.ep s).writes <+: r.1.writes)
    (hhand : ∀ pkt, r.1.inHand = some pkt → isAckFrame pkt.bytes = true →
      Kept (net.ep s).writes (net.ep s.peer) pkt.origin)
    (hacked : ∀ origin ∈ r.1.acked, Kept (net.ep s).writes (net.ep s.peer) origin)
    (hkeep : ∀ origin, Kept (net.ep s.peer).writes (net.ep s) origin →
      Kept (net.ep s.peer).writes r.1 origin)
    (hsend : ∀ pkt ∈ r.2, isAckFrame pkt.bytes = true →
      Kept (net.ep s.peer).writes r.1 pkt.origin) :
    ∀ x, AcksKept (net.set s r) x := by
  intro x
  rcases s.eq_or_eq_peer x with rfl | rfl
  · refine ⟨?_, ?_, ?_⟩ <;> simp only [Net.ep_set_self, Net.ep_set_peer, Net.wire_set_peer]
    · exact fun pkt hpkt hack => ((h x).wire pkt hpkt hack).mono hws
    · exact fun pkt hpkt hack => (hhand pkt hpkt hack).mono hws
    · exact fun origin ho => (hacked origin ho).mono hws
  · have hp := h s.peer
    refine ⟨?_, ?_, ?_⟩ <;>
      simp only [Net.ep_set_self, Net.ep_set_peer, Net.wire_set_self, Side.peer_peer]
    · grind [Side.peer_peer, hp.wire]
    · intro pkt hpkt hack
      have hk := hp.hand pkt hpkt hack
      rw [Side.peer_peer] at hk
      exact hkeep _ hk
    · intro origin ho
      have hk := hp.acked origin ho
      rw [Side.peer_peer] at hk
      exact hkeep _ hk

theorem isAckFrame_take (b : Bytes) : isAckFrame (b.take receiveBufSize) = isAckFrame b := by
  match b with
  | [] => rfl
  | [_] => rfl
  | [_, _] => rfl
  | _ :: _ :: _ :: _ => rfl

variable {pkt : Tagged}

theorem poll_inHand {pkt? : Option Tagged} (hrest : e.innerRest.bytes = [])
    (hhand : e.inHand = none) (he : e.poll pkt? = some e') (hpkt : e'.inHand = some pkt) :
    ∃ pkt₀, pkt? = some pkt₀ ∧ pkt = ⟨pkt₀.bytes.take receiveBufSize, pkt₀.origin⟩ := by
  unfold Endpoint.poll at he
  split_ifs at he with hdone
  · cases he
    exact absurd hpkt (by simp [hhand])
  · exact absurd hrest ‹_›
  · grind [Option.map_eq_some_iff, Endpoint.accept, hpkt.symm]

theorem not_ack_of_write {now : Nat} {p : Bytes} {innerOk : Bool}
    (hpkt : pkt ∈ (e.write now p innerOk).2) : isAckFrame pkt.bytes = false := by
  cases innerOk with
  | false => simp [Endpoint.write] at hpkt
  | true =>
    simp only [Endpoint.write, if_true, mem_singleton] at hpkt
    subst hpkt
    exact isAckFrame_encodeFrame_data p (.inl rfl)

theorem not_ack_of_retransmit {sent : List Tagged} (h : SenderInv e sent) {now : Nat}
    (hpkt : pkt ∈ (e.retransmit now).2) : isAckFrame pkt.bytes = false := by
  obtain ⟨seq, f, hf, rfl⟩ := (retransmitFrom_retransmit e now).sent pkt hpkt
  obtain ⟨-, w, -, hdata⟩ := h.unacked seq f hf
  show isAckFrame (f.data.set 2 reliableFlagRetransmit) = false
  rw [hdata, set_flags_encodeFrame]
  exact isAckFrame_encodeFrame_data _ (.inr rfl)

/-- **One step that meets the condition keeps acknowledgements sound.** -/
theorem step_acksKept {net' : Net} {act : Action} (hinv : net.Inv) (h : ∀ x, AcksKept net x)
    (hok : AckOk net act) (hstep : step net act = some net') : ∀ x, AcksKept net' x := by
  cases step_cases hstep with
  | write s p innerOk =>
    refine AcksKept.set h s (prefix_append _ _) (h s).hand (h s).acked
      (fun _ hk => hk.of_eq rfl rfl) fun pkt hpkt hack => ?_
    rw [not_ack_of_write hpkt] at hack
    cases hack
  | read s n e hr =>
    obtain ⟨-, -, hws, hacked, hhand⟩ := hr.sender_fields
    refine AcksKept.set h s (hws ▸ prefix_refl _) ?_ ?_ (fun _ hk => hk.read hr) (by simp)
    · rw [hhand]
      exact (h s).hand
    · rw [hacked]
      exact (h s).acked
  | poll s i e hfree he =>
    obtain ⟨-, -, hws, hacked, hheld, htaken, -⟩ := poll_fields he
    refine AcksKept.set h s (hws ▸ prefix_refl _) (fun pkt hpkt hack => ?_) ?_
      (fun _ hk => hk.of_eq hheld htaken) (by simp)
    · -- an acknowledgement in hand was on the wire before
      obtain ⟨pkt₀, hsome, rfl⟩ := poll_inHand (hinv.receiver s).rest hfree he hpkt
      rw [isAckFrame_take] at hack
      exact (h s).wire pkt₀ (mem_of_getElem? hsome) hack
    · rw [hacked]
      exact (h s).acked
  | handle s pkt hpkt =>
    obtain ⟨hokData, hokAck⟩ := hok pkt hpkt
    have hgen := hinv.hand hpkt
    obtain ⟨bytes, origin⟩ := pkt
    cases hgen with
    | data w flags hw hflags hbytes =>
      simp only at hw hbytes
      subst hbytes
      have hd : FromWrite (net.ep s.peer).writes ⟨w.payload, origin⟩ := ⟨w, hw, rfl⟩
      have hcond := hokData (isDataFrame_encodeFrame _ hflags)
      rw [frameSeq_encodeFrame] at hcond
      rw [handle_data hflags]
      refine AcksKept.set h s (prefix_refl _)
        (fun _ hnone => absurd hnone (by simp [Endpoint.handleData])) (h s).acked
        (fun _ hk => hk.handleData hd fun hroom => ?_) fun pkt' hpkt' _ => ?_
      · rw [if_pos hroom] at hcond
        exact hcond
      · -- the acknowledgement sent here is for this very frame
        simp only [Endpoint.handleData, mem_singleton] at hpkt'
        subst hpkt'
        refine kept_handleData hd fun hfull => ?_
        rw [if_neg hfull] at hcond
        exact hcond
    | ack hbytes =>
      simp only at hbytes
      subst hbytes
      have hcond := hokAck (isAckFrame_encodeFrame_ack _)
      rw [frameSeq_encodeFrame] at hcond
      rw [handle_ack]
      refine AcksKept.set h s (prefix_refl _)
        (fun _ hnone => absurd hnone (by simp [Endpoint.handleAck])) (fun o ho => ?_)
        (fun _ hk => hk.of_eq rfl rfl) (by simp)
      rcases mem_append.1 ho with ho | ho
      · exact (h s).acked o ho
      · -- the entry that is removed is the one the acknowledgement names
        simp only [mem_map, Option.mem_toList] at ho
        obtain ⟨f, hf, rfl⟩ := ho
        rw [hcond f hf]
        exact (h s).hand _ hpkt (isAckFrame_encodeFrame_ack _)
  | retransmit s =>
    refine AcksKept.set h s (prefix_refl _) (h s).hand (h s).acked
      (fun _ hk => hk.of_eq rfl rfl) fun pkt hpkt hack => ?_
    rw [not_ack_of_retransmit (hinv s).1 hpkt] at hack
    cases hack
  | close s =>
    exact AcksKept.set h s (prefix_refl _) (h s).hand (h s).acked
      (fun _ hk => hk.of_eq rfl rfl) (by simp)
  | tick d =>
    intro x
    have hx := h x
    exact ⟨by simpa using hx.wire, by simpa using hx.hand, by simpa using hx.acked⟩

theorem acksKept_init (s : Side) : AcksKept {} s := by
  cases s <;> exact ⟨by simp [Net.wire, Side.peer], by simp [Net.ep], by simp [Net.ep]⟩

theorem reachable_acksKept (h : Reachable AckOk net) : net.Inv ∧ ∀ s, AcksKept net s := by
  refine h.invariant (fun net => net.Inv ∧ ∀ s, AcksKept net s)
    ⟨Net.inv_init, acksKept_init⟩ ?_
  rintro net act net' ⟨hinv, hacks⟩ hok hstep
  exact ⟨step_inv hinv (fitsOk_of_ackOk hok) hstep, step_acksKept hinv hacks hok hstep⟩

/-- **Soundness of acknowledgements** in every run that meets the condition. -/
theorem ackSound_of_reachable {net : Net} (h : Reachable AckOk net) (s : Side) :
    AckSound net s := by
  obtain ⟨hinv, hacks⟩ := reachable_acksKept h
  exact ⟨(hinv s).2.stream, (hacks s).acked⟩

def ackedRun : List Action :=
  [.write .a [7] true, .poll .b 0, .handle .b, .poll .a 0, .handle .a]

theorem ackSound_ackedRun : ∃ net, run step {} ackedRun = some net ∧
    (net.ep .a).acked = [0] ∧ AckSound net .a := by
  have hok : AllSteps step AckOk {} ackedRun := by
    intro net₁ h₁
    cases h₁
    refine ⟨by simp [AckOk, reliableHeaderSize, receiveBufSize], fun net₂ h₂ => ?_⟩
    cases h₂
    refine ⟨trivial, fun net₃ h₃ => ?_⟩
    cases h₃
    refine ⟨fun pkt hpkt => ?_, fun net₄ h₄ => ?_⟩
    · cases hpkt
      refine ⟨fun _ => ?_, fun hack => absurd hack (by decide)⟩
      rw [if_pos (by decide)]
      intro d hd
      cases hd
    · cases h₄
      refine ⟨trivial, fun net₅ h₅ => ?_⟩
      cases h₅
      refine ⟨fun pkt hpkt => ?_, trivial⟩
      cases hpkt
      refine ⟨fun hdata => absurd hdata (by decide), fun _ f hf => ?_⟩
      cases hf
      rfl
  have hrun : run step {} ackedRun = some _ := rfl
  exact ⟨_, hrun, rfl, ackSound_of_reachable (reaches_of_allSteps hrun hok) .a⟩

/-- The first of 258 packets is late, and the last one is acknowledged at the full window. -/
def fullRun : List Action :=
  floodRun 258 ++ deliverRun (range' 1 256) ++
    [.poll .b 257, .handle .b, .poll .a 256, .handle .a]

theorem fullRun_not_ackSound :
    ∃ net, run step {} fullRun = some net ∧ ¬ AckSound net .a := by
  obtain ⟨net, hrun, hnet⟩ := run_fill 258 256 (Nat.le_refl _) (by decide)
  -- the last data packet finds the window full: only its acknowledgement is sent
  have hpkt : (net.wire .a)[257]? = some (floodPacket 257) :=
    hnet.sender.wire_getElem? (by decide)
  have hdeliver := run_deliver hnet.idle hpkt (length_floodPacket_le _)
  rw [handle_floodPacket] at hdeliver
  generalize hr : ((net.ep .b).accept (floodPacket 257)).handleData _ _ = r at hdeliver
  have hbuf : r.1.readBuf = (net.ep .b).readBuf := by
    rw [← hr]
    exact if_neg (by simp [Endpoint.accept, hnet.length, reliableWindowSize])
  have htaken : r.1.taken = [] := by
    rw [← hr]
    exact hnet.taken
  have hsent : r.2 = [sendAck (UInt16.ofNat 257) 257] := by
    rw [← hr]
    rfl
  -- the acknowledgement removes frame 257 from `unacked`
  let net₁ : Net := net.set .b r
  have hidle : (net₁.ep .a).Idle := by
    obtain ⟨hhand, hrest, hrecv, hdone, -⟩ := hnet.sender.idle
    exact ⟨hrecv, hhand, hdone, hrest⟩
  have hack : (net₁.wire .b)[256]? = some (sendAck (UInt16.ofNat 257) 257) := by
    show (net.wire .b ++ r.2)[256]? = _
    rw [hsent, ← hnet.acks, getElem?_concat_length]
  have hback := run_deliver hidle hack (by rw [sendAck, length_encodeFrame]; decide)
  rw [show ((net₁.ep .a).accept (sendAck (UInt16.ofNat 257) 257)).handle
        (sendAck (UInt16.ofNat 257) 257) =
      (((net₁.ep .a).accept (sendAck (UInt16.ofNat 257) 257)).handleAck (UInt16.ofNat 257), [])
    from handle_ack _ _ _] at hback
  generalize hr' : ((net₁.ep .a).accept _).handleAck _ = e' at hback
  have hacked : 257 ∈ e'.acked := by
    obtain ⟨f, hf, horigin⟩ := hnet.sender.unacked (by decide) 257 (by decide)
    rw [← hr']
    refine mem_append_right _ ?_
    rw [mem_map]
    exact ⟨f, by rw [Option.mem_toList]; exact hf, horigin⟩
  refine ⟨net₁.set .a (e', []), ?_, fun hsound => ?_⟩
  · rw [fullRun, run_append, hrun]
    show run step net ([.poll .b 257, .handle .b] ++ [.poll .a 256, .handle .a]) = _
    rw [run_append, hdeliver]
    exact hback
  · -- but the receiver only ever stored the frames 1 to 256
    obtain ⟨d, horigin, -, hin⟩ := hsound.kept 257 hacked
    have hin' : d ∈ r.1.taken ∨ ∃ seq, r.1.readBuf.lookup seq = some d := hin
    rw [htaken, hbuf] at hin'
    rcases hin' with hmem | ⟨seq, hseq⟩
    · cases hmem
    · obtain ⟨-, -, hle⟩ := hnet.held seq d hseq
      omega

end NatProxy.WebRTC.ReliableRTP
