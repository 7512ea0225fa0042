import NatProxy.WebRTC.ReliableRTP
import NatProxy.Lib.FiniteMap

/-!
# What travels between the two endpoints

Invariants of every run of two `reliableRTP` endpoints whose frames fit the receive buffer
(`FitsOk`): packets on a wire, the packet in the hands of `receiveLoop`, unacknowledged frames,
buffered payloads and payloads taken by `Read` are all what the numbered `Write` calls made them
(`Net.Inv`, `reachable_inv`). Nothing is said yet about which numbers are acknowledged or delivered.
-/

namespace NatProxy.WebRTC.ReliableRTP

open Lib List

/-! ## The two sides of a net -/

@[simp] theorem Side.peer_peer (s : Side) : s.peer.peer = s := by cases s <;> rfl

theorem Side.eq_or_eq_peer (s x : Side) : x = s ∨ x = s.peer := by
  cases s <;> cases x <;> simp [Side.peer]

@[simp] theorem Net.ep_set_self (net : Net) (s : Side) (r : Endpoint × List Tagged) :
    (net.set s r).ep s = r.1 := by cases s <;> rfl

@[simp] theorem Net.ep_set_peer (net : Net) (s : Side) (r : Endpoint × List Tagged) :
    (net.set s r).ep s.peer = net.ep s.peer := by cases s <;> rfl

@[simp] theorem Net.wire_set_self (net : Net) (s : Side) (r : Endpoint × List Tagged) :
    (net.set s r).wire s = net.wire s ++ r.2 := by cases s <;> rfl

@[simp] theorem Net.wire_set_peer (net : Net) (s : Side) (r : Endpoint × List Tagged) :
    (net.set s r).wire s.peer = net.wire s.peer := by cases s <;> rfl

@[simp] theorem Net.ep_tick (net : Net) (d : Nat) (s : Side) : (net.tick d).ep s = net.ep s := by
  cases s <;> rfl

@[simp] theorem Net.wire_tick (net : Net) (d : Nat) (s : Side) :
    (net.tick d).wire s = net.wire s := by cases s <;> rfl

/-! ## Frames -/

theorem handle_data {seq : UInt16} {flags : UInt8}
    (hflags : flags = reliableFlagData ∨ flags = reliableFlagRetransmit) (e : Endpoint)
    (payload : Bytes) (origin : Nat) :
    e.handle ⟨encodeFrame seq flags payload, origin⟩ = e.handleData seq ⟨payload, origin⟩ := by
  simp [Endpoint.handle, encodeFrame, putUint16, getUint16_putUint16, hflags]

theorem handle_ack (seq : UInt16) (e : Endpoint) (origin : Nat) :
    e.handle ⟨encodeFrame seq reliableFlagAck [], origin⟩ = (e.handleAck seq, []) := by
  simp [Endpoint.handle, encodeFrame, putUint16, getUint16_putUint16, reliableFlagData,
    reliableFlagRetransmit, reliableFlagAck]

theorem frameSeq_encodeFrame (seq : UInt16) (flags : UInt8) (payload : Bytes) :
    frameSeq (encodeFrame seq flags payload) = seq := by
  simp [frameSeq, encodeFrame, putUint16, getUint16_putUint16]

theorem set_flags_encodeFrame (seq : UInt16) (flags flags' : UInt8) (payload : Bytes) :
    (encodeFrame seq flags payload).set 2 flags' = encodeFrame seq flags' payload := rfl

theorem length_encodeFrame (seq : UInt16) (flags : UInt8) (payload : Bytes) :
    (encodeFrame seq flags payload).length = reliableHeaderSize + payload.length := by
  simp [encodeFrame, putUint16, reliableHeaderSize]
  omega

theorem handle_cases (e : Endpoint) (pkt : Tagged) :
    (isDataFrame pkt.bytes = true ∧
      ∃ payload, e.handle pkt = e.handleData (frameSeq pkt.bytes) ⟨payload, pkt.origin⟩) ∨
    (isDataFrame pkt.bytes = false ∧ (e.handle pkt).1.readBuf = e.readBuf ∧
      (e.handle pkt).1.readSeq = e.readSeq) := by
  obtain ⟨bytes, origin⟩ := pkt
  -- packets shorter than the header are skipped
  match bytes with
  | [] => exact .inr ⟨rfl, rfl, rfl⟩
  | [_] => exact .inr ⟨rfl, rfl, rfl⟩
  | [_, _] => exact .inr ⟨rfl, rfl, rfl⟩
  | hi :: lo :: flags :: payload =>
    by_cases hflags : flags = reliableFlagData ∨ flags = reliableFlagRetransmit
    · refine .inl ⟨by simpa [isDataFrame] using hflags, payload, ?_⟩
      simp [Endpoint.handle, hflags, frameSeq]
    · refine .inr ⟨by simpa [isDataFrame] using hflags, ?_⟩
      simp only [Endpoint.handle, if_neg hflags]
      split_ifs
      · exact ⟨rfl, rfl⟩
      · exact ⟨rfl, rfl⟩

theorem handle_sender (e : Endpoint) (pkt : Tagged) :
    (e.handle pkt).1.done = e.done ∧
      ∀ seq f, (e.handle pkt).1.unacked.lookup seq = some f → e.unacked.lookup seq = some f := by
  obtain ⟨bytes, origin⟩ := pkt
  match bytes with
  | [] => exact ⟨rfl, fun _ _ h => h⟩
  | [_] => exact ⟨rfl, fun _ _ h => h⟩
  | [_, _] => exact ⟨rfl, fun _ _ h => h⟩
  | hi :: lo :: flags :: payload =>
    simp only [Endpoint.handle]
    split_ifs with hdata hack
    · exact ⟨rfl, fun _ _ h => h⟩
    · refine ⟨rfl, fun seq f h => ?_⟩
      exact ((lookup_erase_eq_some_iff _ _ _ _).mp h).2
    · exact ⟨rfl, fun _ _ h => h⟩

/-- A packet as the sender with the calls `ws` makes it: a data frame, new or again, or an
acknowledgement. -/
inductive Genuine (ws : List WriteCall) (pkt : Tagged) : Prop
  | data (w : WriteCall) (flags : UInt8) (hw : ws[pkt.origin]? = some w)
      (hflags : flags = reliableFlagData ∨ flags = reliableFlagRetransmit)
      (hbytes : pkt.bytes = encodeFrame (UInt16.ofNat pkt.origin) flags w.payload)
  | ack (hbytes : pkt.bytes = encodeFrame (UInt16.ofNat pkt.origin) reliableFlagAck [])

/-- The payload of the `Write` call that `d` comes from. -/
def FromWrite (ws : List WriteCall) (d : Tagged) : Prop :=
  ∃ w, ws[d.origin]? = some w ∧ d.bytes = w.payload

variable {ws ws' : List WriteCall} {pkt : Tagged}

theorem Genuine.mono (h : ws <+: ws') (hp : Genuine ws pkt) : Genuine ws' pkt := by
  cases hp with
  | data w flags hw hflags hbytes =>
    exact .data w flags (getElem?_eq_of_isPrefix h hw) hflags hbytes
  | ack hbytes => exact .ack hbytes

theorem FromWrite.mono (h : ws <+: ws') {d : Tagged} (hd : FromWrite ws d) : FromWrite ws' d := by
  obtain ⟨w, hw, hb⟩ := hd
  exact ⟨w, getElem?_eq_of_isPrefix h hw, hb⟩

/-! ## Invariants of one endpoint -/

/-- Sender half: sequence numbers count the `Write` calls, payloads fit the buffer, and
unacknowledged frames and packets are genuine. -/
structure SenderInv (e : Endpoint) (sent : List Tagged) : Prop where
  seq : e.writeSeq = UInt16.ofNat e.writes.length
  fits : ∀ w ∈ e.writes, reliableHeaderSize + w.payload.length ≤ receiveBufSize
  unacked : ∀ seq f, e.unacked.lookup seq = some f → seq = UInt16.ofNat f.origin ∧
    ∃ w, e.writes[f.origin]? = some w ∧ f.data = encodeFrame seq reliableFlagData w.payload
  sent : ∀ pkt ∈ sent, Genuine e.writes pkt

structure ReceiverInv (ws : List WriteCall) (e : Endpoint) : Prop where
  rest : e.innerRest.bytes = []
  hand : ∀ pkt, e.inHand = some pkt → Genuine ws pkt
  held : ∀ seq d, e.readBuf.lookup seq = some d → seq = UInt16.ofNat d.origin ∧ FromWrite ws d
  taken : ∀ d ∈ e.taken, FromWrite ws d
  stream : e.returned ++ e.readPending = (e.taken.map Tagged.bytes).flatten
  readSeq : e.readSeq = UInt16.ofNat e.taken.length

theorem SenderInv.fresh : SenderInv {} [] where
  seq := rfl
  fits := by simp
  unacked := by simp
  sent := by simp

theorem ReceiverInv.fresh : ReceiverInv [] {} where
  rest := rfl
  hand := by simp
  held := by simp
  taken := by simp
  stream := rfl
  readSeq := rfl

variable {e e' : Endpoint} {n : Nat}

variable {sent : List Tagged}

theorem SenderInv.of_eq (h : SenderInv e sent) (hseq : e'.writeSeq = e.writeSeq)
    (hun : e'.unacked = e.unacked) (hws : e'.writes = e.writes) : SenderInv e' (sent ++ []) := by
  obtain ⟨h1, h2, h3, h4⟩ := h
  rw [append_nil]
  exact ⟨by rw [hseq, hws, h1], by rw [hws]; exact h2, by rw [hun, hws]; exact h3,
    by rw [hws]; exact h4⟩

theorem ReceiverInv.mono (h : ReceiverInv ws e)
    (hws : ws <+: ws') : ReceiverInv ws' e where
  rest := h.rest
  hand pkt hp := (h.hand pkt hp).mono hws
  held seq d hd := ⟨(h.held seq d hd).1, (h.held seq d hd).2.mono hws⟩
  taken d hd := (h.taken d hd).mono hws
  stream := h.stream
  readSeq := h.readSeq

theorem ReceiverInv.of_eq (h : ReceiverInv ws e) (hrest : e'.innerRest = e.innerRest)
    (hhand : e'.inHand = e.inHand) (hheld : e'.readBuf = e.readBuf) (htaken : e'.taken = e.taken)
    (hret : e'.returned = e.returned) (hpend : e'.readPending = e.readPending)
    (hseq : e'.readSeq = e.readSeq) : ReceiverInv ws e' := by
  obtain ⟨h1, h2, h3, h4, h5, h6⟩ := h
  exact ⟨by rw [hrest, h1], by rw [hhand]; exact h2, by rw [hheld]; exact h3,
    by rw [htaken]; exact h4, by rw [hret, hpend, htaken]; exact h5, by rw [hseq, htaken, h6]⟩

/-! ## `Write` and `retransmitLoop` keep the sender half -/

theorem uint16_ofNat_succ (n : Nat) : UInt16.ofNat n + 1 = UInt16.ofNat (n + 1) := by
  rw [UInt16.ofNat_add]
  rfl

theorem SenderInv.write (h : SenderInv e sent) (now : Nat)
    {p : Bytes} (hp : reliableHeaderSize + p.length ≤ receiveBufSize) (innerOk : Bool) :
    SenderInv (e.write now p innerOk).1 (sent ++ (e.write now p innerOk).2) := by
  have hpre : e.writes <+: e.writes ++ [⟨p, innerOk⟩] := prefix_append _ _
  have hlast : (e.writes ++ [(⟨p, innerOk⟩ : WriteCall)])[e.writes.length]? =
      some ⟨p, innerOk⟩ := by
    simp
  refine ⟨?_, ?_, ?_, ?_⟩
  · show e.writeSeq + 1 = UInt16.ofNat (e.writes ++ [(⟨p, innerOk⟩ : WriteCall)]).length
    rw [h.seq, length_append, length_singleton, uint16_ofNat_succ]
  · intro w hw
    rcases mem_append.1 hw with hw | hw
    · exact h.fits w hw
    · rw [mem_singleton] at hw
      subst hw
      exact hp
  · intro seq f hf
    -- the entry of the new frame, or an old entry whose number is not reused yet
    rcases (lookup_insert_eq_some_iff _ _ _ _ _).1 hf with ⟨rfl, rfl⟩ | ⟨-, hf⟩
    · exact ⟨h.seq, ⟨p, innerOk⟩, hlast, rfl⟩
    · obtain ⟨hseq, w, hw, hdata⟩ := h.unacked seq f hf
      exact ⟨hseq, w, getElem?_eq_of_isPrefix hpre hw, hdata⟩
  · intro pkt hpkt
    rcases mem_append.1 hpkt with hpkt | hpkt
    · exact (h.sent pkt hpkt).mono hpre
    · cases innerOk with
      | false => simp [Endpoint.write] at hpkt
      | true =>
        simp only [Endpoint.write, if_true, mem_singleton] at hpkt
        subst hpkt
        exact .data ⟨p, true⟩ reliableFlagData hlast (.inl rfl) (by rw [h.seq])

/-- A tick leaves old frames up to their clock fields, and sends old frames with the retransmit
flag. -/
structure RetransmitFrom (u : AList fun _ : UInt16 => ReliableFrame)
    (st : (AList fun _ : UInt16 => ReliableFrame) × List Tagged) : Prop where
  left : ∀ seq f, st.1.lookup seq = some f →
    ∃ f₀, u.lookup seq = some f₀ ∧ f.data = f₀.data ∧ f.origin = f₀.origin
  sent : ∀ pkt ∈ st.2, ∃ seq f₀, u.lookup seq = some f₀ ∧
    pkt = ⟨f₀.data.set 2 reliableFlagRetransmit, f₀.origin⟩

theorem RetransmitFrom.one {u : AList fun _ : UInt16 => ReliableFrame}
    {st : (AList fun _ : UInt16 => ReliableFrame) × List Tagged} (h : RetransmitFrom u st)
    (now : Nat) (seq : UInt16) : RetransmitFrom u (retransmitOne now st seq) := by
  unfold retransmitOne
  split
  · exact h
  · rename_i f hf
    split_ifs with htime hretries
    · -- retries used up: the entry disappears
      refine ⟨fun seq' f' hf' => ?_, h.sent⟩
      exact h.left seq' f' ((lookup_erase_eq_some_iff _ _ _ _).1 hf').2
    · -- sent again: the entry keeps its bytes, only the clock fields change
      obtain ⟨f₀, hf₀, hdata, horigin⟩ := h.left seq f hf
      refine ⟨fun seq' f' hf' => ?_, fun pkt hpkt => ?_⟩
      · grind [lookup_insert_eq_some_iff, h.left]
      · grind [h.sent]
    · exact h

theorem retransmitFrom_retransmit (e : Endpoint) (now : Nat) :
    RetransmitFrom e.unacked ((e.retransmit now).1.unacked, (e.retransmit now).2) := by
  -- the loop visits the keys of the map it started from, whatever it has changed since
  have key : ∀ (keys : List UInt16) (st : (AList fun _ : UInt16 => ReliableFrame) × List Tagged),
      RetransmitFrom e.unacked st →
        RetransmitFrom e.unacked (keys.foldl (retransmitOne now) st) := by
    intro keys
    induction keys with
    | nil => exact fun st h => h
    | cons k keys ih => exact fun st h => ih _ (h.one now k)
  exact key e.unacked.keys (e.unacked, [])
    ⟨fun seq f hf => ⟨f, hf, rfl, rfl⟩, fun pkt hpkt => absurd hpkt (by simp)⟩

theorem SenderInv.retransmit (h : SenderInv e sent)
    (now : Nat) : SenderInv (e.retransmit now).1 (sent ++ (e.retransmit now).2) := by
  have hr := retransmitFrom_retransmit e now
  refine ⟨h.seq, h.fits, ?_, ?_⟩
  · intro seq f hf
    obtain ⟨f₀, hf₀, hdata, horigin⟩ := hr.left seq f hf
    rw [hdata, horigin]
    exact h.unacked seq f₀ hf₀
  · intro pkt hpkt
    rcases mem_append.1 hpkt with hpkt | hpkt
    · exact h.sent pkt hpkt
    · obtain ⟨seq, f₀, hf₀, rfl⟩ := hr.sent pkt hpkt
      obtain ⟨hseq, w, hw, hdata⟩ := h.unacked seq f₀ hf₀
      refine .data w reliableFlagRetransmit hw (.inr rfl) ?_
      show f₀.data.set 2 reliableFlagRetransmit = _
      rw [hdata, set_flags_encodeFrame, hseq]

/-! ## `Read` and `receiveLoop` keep the receiver half -/

/-- The rest of a payload, the end, or the payload with the next number. -/
inductive ReadCase (e : Endpoint) (n : Nat) : Endpoint → Prop where
  | pending : ReadCase e n { e with
      readPending := e.readPending.drop n
      returned := e.returned ++ e.readPending.take n }
  | eof : ReadCase e n e
  | takes (d : Tagged) (hpend : e.readPending = []) (hd : e.readBuf.lookup e.readSeq = some d) :
      ReadCase e n { e with
        readBuf := e.readBuf.erase e.readSeq
        readSeq := e.readSeq + 1
        readPending := d.bytes.drop n
        returned := e.returned ++ d.bytes.take n
        taken := e.taken ++ [d] }

theorem read_cases {r : Endpoint × ReadResult} (hr : e.read n = some r) :
    ReadCase e n r.1 := by
  unfold Endpoint.read at hr
  split_ifs at hr with hpend hdone
  · cases hr
    exact .pending
  · cases hr
    exact .eof
  · cases hd : e.readBuf.lookup e.readSeq with
    | none => simp [hd] at hr
    | some d =>
      simp only [hd, Option.some.injEq] at hr
      subst hr
      exact .takes d (by simpa using hpend) hd

theorem ReceiverInv.read (h : ReceiverInv ws e) (hr : ReadCase e n e') : ReceiverInv ws e' := by
  cases hr with
  | pending =>
    refine ⟨h.rest, h.hand, h.held, h.taken, ?_, h.readSeq⟩
    show e.returned ++ e.readPending.take n ++ e.readPending.drop n = _
    rw [append_assoc, take_append_drop, h.stream]
  | eof => exact h
  | takes d hpend hd =>
    have hstream := h.stream
    rw [hpend, append_nil] at hstream
    refine ⟨h.rest, h.hand, ?_, ?_, ?_, ?_⟩
    · intro seq d' hd'
      exact h.held seq d' ((lookup_erase_eq_some_iff _ _ _ _).1 hd').2
    · intro d' hd'
      rcases mem_append.1 hd' with hd' | hd'
      · exact h.taken d' hd'
      · rw [mem_singleton] at hd'
        subst hd'
        exact (h.held _ _ hd).2
    · show e.returned ++ d.bytes.take n ++ d.bytes.drop n = _
      simp [hstream]
    · show e.readSeq + 1 = UInt16.ofNat (e.taken ++ [d]).length
      rw [h.readSeq, length_append, length_singleton, uint16_ofNat_succ]

theorem ReceiverInv.accept (h : ReceiverInv ws e) (hpkt : Genuine ws pkt)
    (hfits : ∀ w ∈ ws, reliableHeaderSize + w.payload.length ≤ receiveBufSize) :
    ReceiverInv ws (e.accept pkt) := by
  -- nothing is cut off, so nothing is left for the next inner read
  have hlen : pkt.bytes.length ≤ receiveBufSize := by
    cases hpkt with
    | data w flags hw hflags hbytes =>
      rw [hbytes, length_encodeFrame]
      exact hfits w (mem_of_getElem? hw)
    | ack hbytes =>
      rw [hbytes, length_encodeFrame]
      decide
  refine ⟨drop_eq_nil_of_le hlen, ?_, h.held, h.taken, h.stream, h.readSeq⟩
  intro pkt' hpkt'
  simp only [Endpoint.accept, Option.some.injEq, take_of_length_le hlen] at hpkt'
  subst hpkt'
  exact hpkt

theorem ReceiverInv.poll (h : ReceiverInv ws e)
    {pkt? : Option Tagged} (hpkt : ∀ pkt, pkt? = some pkt → Genuine ws pkt)
    (hfits : ∀ w ∈ ws, reliableHeaderSize + w.payload.length ≤ receiveBufSize)
    (he : e.poll pkt? = some e') : ReceiverInv ws e' := by
  unfold Endpoint.poll at he
  split_ifs at he with hdone hrest
  · cases he
    exact h.of_eq rfl rfl rfl rfl rfl rfl rfl
  · exact absurd h.rest hrest
  · obtain ⟨pkt, hsome, rfl⟩ := Option.map_eq_some_iff.1 he
    exact h.accept (hpkt pkt hsome) hfits

theorem ReceiverInv.handleData (h : ReceiverInv ws e) {d : Tagged} (hd : FromWrite ws d) :
    ReceiverInv ws (e.handleData (UInt16.ofNat d.origin) d).1 := by
  refine ⟨h.rest, fun pkt hp => absurd hp (by simp [Endpoint.handleData]), ?_, h.taken, h.stream,
    h.readSeq⟩
  intro seq d' hd'
  simp only [Endpoint.handleData] at hd'
  -- a full window drops the payload
  split_ifs at hd' with hroom
  · grind [lookup_insert_eq_some_iff, h.held]
  · exact h.held seq d' hd'

theorem ReceiverInv.handleAck (h : ReceiverInv ws e)
    (seq : UInt16) : ReceiverInv ws (e.handleAck seq) :=
  ⟨h.rest, fun _ hp => absurd hp (by simp [Endpoint.handleAck]), h.held, h.taken, h.stream,
    h.readSeq⟩

theorem SenderInv.handleData (h : SenderInv e sent)
    (d : Tagged) : SenderInv (e.handleData (UInt16.ofNat d.origin) d).1
      (sent ++ (e.handleData (UInt16.ofNat d.origin) d).2) := by
  refine ⟨h.seq, h.fits, h.unacked, fun pkt hpkt => ?_⟩
  rcases mem_append.1 hpkt with hpkt | hpkt
  · exact h.sent pkt hpkt
  · simp only [Endpoint.handleData, mem_singleton] at hpkt
    subst hpkt
    exact .ack rfl

theorem SenderInv.handleAck (h : SenderInv e sent)
    (seq : UInt16) : SenderInv (e.handleAck seq) (sent ++ []) := by
  rw [append_nil]
  refine ⟨h.seq, h.fits, fun seq' f hf => ?_, h.sent⟩
  exact h.unacked seq' f ((lookup_erase_eq_some_iff _ _ _ _).1 hf).2

theorem handle_genuine (hpkt : Genuine ws pkt) (e : Endpoint) :
    (∃ d, FromWrite ws d ∧ d.origin = pkt.origin ∧
      e.handle pkt = e.handleData (UInt16.ofNat d.origin) d) ∨
    e.handle pkt = (e.handleAck (UInt16.ofNat pkt.origin), []) := by
  obtain ⟨bytes, origin⟩ := pkt
  cases hpkt with
  | data w flags hw hflags hbytes =>
    simp only at hw hbytes
    subst hbytes
    exact .inl ⟨⟨w.payload, origin⟩, ⟨w, hw, rfl⟩, rfl, handle_data hflags e _ _⟩
  | ack hbytes =>
    simp only at hbytes
    subst hbytes
    exact .inr (handle_ack _ e _)

/-! ## The invariant of a net -/

/-- The sender half at each side, and the receiver half at its peer. -/
def Net.Inv (net : Net) : Prop :=
  ∀ s : Side, SenderInv (net.ep s) (net.wire s) ∧
    ReceiverInv (net.ep s).writes (net.ep s.peer)

/-- Every payload fits the receive buffer of the peer together with its header. -/
def FitsOk (_ : Net) : Action → Prop
  | .write _ p _ => reliableHeaderSize + p.length ≤ receiveBufSize
  | _ => True

variable {net : Net}

theorem Net.Inv.set (h : net.Inv) (s : Side) {r : Endpoint × List Tagged}
    (hsender : SenderInv r.1 (net.wire s ++ r.2))
    (hreceiver : ReceiverInv (net.ep s.peer).writes r.1) (hws : (net.ep s).writes <+: r.1.writes) :
    (net.set s r).Inv := by
  intro x
  rcases s.eq_or_eq_peer x with rfl | rfl
  · simp only [Net.ep_set_self, Net.wire_set_self, Net.ep_set_peer]
    exact ⟨hsender, (h x).2.mono hws⟩
  · simp only [Net.ep_set_peer, Net.wire_set_peer, Side.peer_peer, Net.ep_set_self]
    exact ⟨(h s.peer).1, hreceiver⟩

theorem Net.Inv.receiver (h : net.Inv) (s : Side) :
    ReceiverInv (net.ep s.peer).writes (net.ep s) := by
  have hr := (h s.peer).2
  rwa [Side.peer_peer] at hr

theorem Net.Inv.hand (h : net.Inv) {s : Side} (hpkt : (net.ep s).inHand = some pkt) :
    Genuine (net.ep s.peer).writes pkt :=
  (h.receiver s).hand pkt hpkt

theorem Net.inv_init : Net.Inv {} := by
  intro s
  cases s <;> exact ⟨SenderInv.fresh, ReceiverInv.fresh⟩

/-- What a step does to the network. -/
inductive StepCase (net : Net) : Action → Net → Prop where
  | write (s : Side) (p : Bytes) (innerOk : Bool) : StepCase net (.write s p innerOk)
      (net.set s ((net.ep s).write net.now p innerOk))
  | read (s : Side) (n : Nat) (e : Endpoint) (hr : ReadCase (net.ep s) n e) :
      StepCase net (.read s n) (net.set s (e, []))
  | poll (s : Side) (i : Nat) (e : Endpoint) (hfree : (net.ep s).inHand = none)
      (he : (net.ep s).poll (net.wire s.peer)[i]? = some e) :
      StepCase net (.poll s i) (net.set s (e, []))
  | handle (s : Side) (pkt : Tagged) (hpkt : (net.ep s).inHand = some pkt) :
      StepCase net (.handle s) (net.set s ((net.ep s).handle pkt))
  | retransmit (s : Side) :
      StepCase net (.retransmit s) (net.set s ((net.ep s).retransmit net.now))
  | close (s : Side) : StepCase net (.close s) (net.set s ((net.ep s).close, []))
  | tick (d : Nat) : StepCase net (.tick d) (net.tick d)

theorem step_cases {net' : Net} {act : Action} (h : step net act = some net') :
    StepCase net act net' := by
  cases act with
  | write s p innerOk =>
    cases h
    exact .write s p innerOk
  | read s n =>
    obtain ⟨r, hr, rfl⟩ := Option.map_eq_some_iff.1 h
    exact .read s n r.1 (read_cases hr)
  | poll s i =>
    simp only [step] at h
    split_ifs at h with hfree
    obtain ⟨e, he, rfl⟩ := Option.map_eq_some_iff.1 h
    exact .poll s i e hfree.2 he
  | handle s =>
    obtain ⟨pkt, hpkt, rfl⟩ := Option.map_eq_some_iff.1 h
    exact .handle s pkt hpkt
  | retransmit s =>
    cases h
    exact .retransmit s
  | close s =>
    cases h
    exact .close s
  | tick d =>
    cases h
    exact .tick d

theorem ReadCase.sender_fields (hr : ReadCase e n e') :
    e'.writeSeq = e.writeSeq ∧ e'.unacked = e.unacked ∧ e'.writes = e.writes ∧
      e'.acked = e.acked ∧ e'.inHand = e.inHand := by
  cases hr <;> exact ⟨rfl, rfl, rfl, rfl, rfl⟩

theorem poll_fields {pkt? : Option Tagged} (he : e.poll pkt? = some e') :
    e'.writeSeq = e.writeSeq ∧ e'.unacked = e.unacked ∧ e'.writes = e.writes ∧
      e'.acked = e.acked ∧ e'.readBuf = e.readBuf ∧ e'.taken = e.taken ∧
      e'.readSeq = e.readSeq := by
  unfold Endpoint.poll at he
  split_ifs at he with hdone hrest
  · cases he
    exact ⟨rfl, rfl, rfl, rfl, rfl, rfl, rfl⟩
  · cases he
    exact ⟨rfl, rfl, rfl, rfl, rfl, rfl, rfl⟩
  · obtain ⟨pkt, -, rfl⟩ := Option.map_eq_some_iff.1 he
    exact ⟨rfl, rfl, rfl, rfl, rfl, rfl, rfl⟩

/-- **One step keeps the invariant.** -/
theorem step_inv {net' : Net} {act : Action} (h : net.Inv) (hok : FitsOk net act)
    (hstep : step net act = some net') : net'.Inv := by
  cases step_cases hstep with
  | write s p innerOk =>
    exact h.set s ((h s).1.write net.now hok innerOk)
      ((h.receiver s).of_eq rfl rfl rfl rfl rfl rfl rfl) (prefix_append _ _)
  | read s n e hr =>
    obtain ⟨hseq, hun, hws, -, -⟩ := hr.sender_fields
    exact h.set s ((h s).1.of_eq hseq hun hws) ((h.receiver s).read hr) (hws ▸ prefix_refl _)
  | poll s i e _ he =>
    obtain ⟨hseq, hun, hws, -, -, -, -⟩ := poll_fields he
    refine h.set s ((h s).1.of_eq hseq hun hws) ?_ (hws ▸ prefix_refl _)
    -- the packet comes from the wire of the peer, where all packets are genuine
    refine (h.receiver s).poll (fun pkt hpkt => ?_) (h s.peer).1.fits he
    exact (h s.peer).1.sent pkt (mem_of_getElem? hpkt)
  | handle s pkt hpkt =>
    rcases handle_genuine (h.hand hpkt) (net.ep s) with ⟨d, hd, -, heq⟩ | heq
    · rw [heq]
      exact h.set s ((h s).1.handleData d) ((h.receiver s).handleData hd) (prefix_refl _)
    · rw [heq]
      exact h.set s ((h s).1.handleAck _) ((h.receiver s).handleAck _) (prefix_refl _)
  | retransmit s =>
    exact h.set s ((h s).1.retransmit net.now)
      ((h.receiver s).of_eq rfl rfl rfl rfl rfl rfl rfl) (prefix_refl _)
  | close s =>
    exact h.set s ((h s).1.of_eq rfl rfl rfl)
      ((h.receiver s).of_eq rfl rfl rfl rfl rfl rfl rfl) (prefix_refl _)
  | tick d =>
    intro x
    simp only [Net.ep_tick, Net.wire_tick]
    exact h x

/-- **The invariant holds in every run whose payloads fit the receive buffer.** -/
theorem reachable_inv {net : Net} (h : Reachable FitsOk net) : net.Inv :=
  h.invariant Net.Inv Net.inv_init fun _ _ _ hinv hok hstep => step_inv hinv hok hstep

/-- The first copy of a payload is late, the second one is acknowledged and then read in part. -/
def exchangeRun : List Action :=
  [.write .a [7, 8] true, .tick (reliableRTOInit + 1), .retransmit .a, .poll .b 1, .handle .b,
    .read .b 1, .poll .a 0, .handle .a, .poll .b 0, .handle .b]

theorem reachable_inv_exchange : ∃ net, run step {} exchangeRun = some net ∧
    (net.ep .b).returned = [7] ∧ (net.ep .a).acked = [0] ∧ net.Inv := by
  have hfits : ∀ act ∈ exchangeRun, ∀ net, FitsOk net act := by
    simp [exchangeRun, FitsOk, reliableHeaderSize, receiveBufSize]
  have hok : AllSteps step FitsOk {} exchangeRun := allSteps_of_forall_mem hfits {}
  have hrun : run step {} exchangeRun = some _ := rfl
  exact ⟨_, hrun, rfl, rfl, reachable_inv (reaches_of_allSteps hrun hok)⟩

/-! ## Delivering one packet -/

def Endpoint.Idle (e : Endpoint) : Prop :=
  e.receiving = true ∧ e.inHand = none ∧ e.done = false ∧ e.innerRest.bytes = []

theorem Net.set_set (net : Net) (s : Side) (e : Endpoint) (r : Endpoint × List Tagged) :
    (net.set s (e, [])).set s r = net.set s r := by
  cases s <;> simp [Net.set]

theorem run_deliver {s : Side} {i : Nat} (hidle : (net.ep s).Idle)
    (hpkt : (net.wire s.peer)[i]? = some pkt) (hlen : pkt.bytes.length ≤ receiveBufSize) :
    run step net [.poll s i, .handle s] =
      some (net.set s (((net.ep s).accept pkt).handle pkt)) := by
  obtain ⟨hrecv, hhand, hdone, hrest⟩ := hidle
  have hpoll : step net (.poll s i) = some (net.set s ((net.ep s).accept pkt, [])) := by
    simp [step, Endpoint.poll, hrecv, hhand, hdone, hrest, hpkt]
  have hin : ((net.ep s).accept pkt).inHand = some pkt := by
    simp [Endpoint.accept, take_of_length_le hlen]
  have hhandle : step (net.set s ((net.ep s).accept pkt, [])) (.handle s) =
      some (net.set s (((net.ep s).accept pkt).handle pkt)) := by
    simp [step, hin, Net.set_set]
  simp [run, hpoll, hhandle]

/-! ## A sender that is not answered -/

def floodRun (n : Nat) : List Action := replicate n (.write .a [0] true)

def floodPacket (i : Nat) : Tagged := ⟨encodeFrame (UInt16.ofNat i) reliableFlagData [0], i⟩

/-- The state after `n` such writes: the sender has numbered and sent `n` packets, and the receiver
is untouched. -/
structure Flooded (n : Nat) (net : Net) : Prop where
  epB : net.epB = {}
  wireB : net.wireB = []
  wireA : net.wireA = (range n).map floodPacket
  writes : net.epA.writes = replicate n ⟨[0], true⟩
  writeSeq : net.epA.writeSeq = UInt16.ofNat n
  idle : net.epA.inHand = none ∧ net.epA.innerRest.bytes = [] ∧ net.epA.receiving = true ∧
    net.epA.done = false ∧ net.epA.acked = []
  unacked : n ≤ 65536 → ∀ i < n, ∃ f, net.epA.unacked.lookup (UInt16.ofNat i) = some f ∧
    f.origin = i

theorem Flooded.write (h : Flooded n net) :
    Flooded (n + 1) (net.set .a (net.epA.write net.now [0] true)) := by
  refine ⟨h.epB, h.wireB, ?_, ?_, ?_, h.idle, ?_⟩
  · show net.wireA ++ [⟨encodeFrame net.epA.writeSeq reliableFlagData [0],
      net.epA.writes.length⟩] = _
    rw [h.wireA, h.writeSeq, h.writes, range_succ, map_append, length_replicate]
    rfl
  · show net.epA.writes ++ [⟨[0], true⟩] = _
    rw [h.writes, replicate_succ']
  · show net.epA.writeSeq + 1 = _
    rw [h.writeSeq, uint16_ofNat_succ]
  · intro hn i hi
    show ∃ f, (net.epA.unacked.insert net.epA.writeSeq _).lookup (UInt16.ofNat i) = some f ∧ _
    rw [h.writeSeq]
    rcases Nat.lt_succ_iff_lt_or_eq.1 hi with hi | rfl
    · -- distinct numbers below one turn have distinct 16-bit numbers
      have hne : UInt16.ofNat i ≠ UInt16.ofNat n := by
        rw [Ne, ofNat_uint16_eq_iff]
        omega
      rw [AList.lookup_insert_ne hne]
      exact h.unacked (by omega) i hi
    · rw [AList.lookup_insert]
      exact ⟨_, rfl, by rw [h.writes, length_replicate]⟩

theorem run_flood (n : Nat) : ∃ net, run step {} (floodRun n) = some net ∧ Flooded n net := by
  induction n with
  | zero => exact ⟨{}, rfl, rfl, rfl, rfl, rfl, rfl, ⟨rfl, rfl, rfl, rfl, rfl⟩, by simp⟩
  | succ n ih =>
    obtain ⟨net, hrun, hnet⟩ := ih
    refine ⟨_, ?_, hnet.write⟩
    rw [floodRun, replicate_succ', run_append, ← floodRun, hrun]
    rfl

end NatProxy.WebRTC.ReliableRTP
