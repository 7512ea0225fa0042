import NatProxy.WebRTC.ReliableInvariant

/-!
# Stream safety of the reliable layer

The bytes returned by `Read` are meant to be a prefix of the bytes passed to the successful `Write`
calls of the peer (`StreamSafe`). `receiveLoop` files a data frame under its 16-bit number without
comparing it with `readSeq`, and the sender numbers frames without a window, so a frame of another
turn of the numbers can be taken for the awaited one: after 65537 writes the last frame has the
number 0 again (`wrapRun_not_streamSafe`).

The stream is safe in every run in which each data frame that `receiveLoop` stores is awaited
(`Awaited`): `Read` has not passed it, it is less than one turn ahead, and its `Write` succeeded
(`streamSafe_of_reachable`).
-/

namespace NatProxy.WebRTC.ReliableRTP

open Lib List

/-- The bytes of the successful `Write` calls. -/
def writtenBytes (ws : List WriteCall) : Bytes :=
  ((ws.filter WriteCall.ok).map WriteCall.payload).flatten

/-- What `Read` returned is a prefix of what was written successfully at `s`. -/
def StreamSafe (net : Net) (s : Side) : Prop :=
  (net.ep s.peer).returned <+: writtenBytes (net.ep s).writes

/-- `Read` has still to take the frame of this successful `Write` call, which is less than one turn
of the numbers ahead. -/
def Awaited (ws : List WriteCall) (e : Endpoint) (origin : Nat) : Prop :=
  e.taken.length ≤ origin ∧ origin < e.taken.length + 65536 ∧
    ∃ w, ws[origin]? = some w ∧ w.ok = true

/-- Payloads fit the receive buffer, and a data frame that `receiveLoop` stores is awaited. -/
def StreamOk (net : Net) : Action → Prop
  | .write _ p _ => reliableHeaderSize + p.length ≤ receiveBufSize
  | .handle s => ∀ pkt, (net.ep s).inHand = some pkt → isDataFrame pkt.bytes = true →
      (net.ep s).readBuf.keys.length < reliableWindowSize →
      Awaited (net.ep s.peer).writes (net.ep s) pkt.origin
  | _ => True

/-- Buffered payloads are awaited, and `Read` took those of the first `Write` calls in order, all
successful. -/
structure InOrder (ws : List WriteCall) (e : Endpoint) : Prop where
  held : ∀ seq d, e.readBuf.lookup seq = some d → Awaited ws e d.origin
  taken : ∀ (i : Nat) (d : Tagged), e.taken[i]? = some d →
    d.origin = i ∧ ∃ w, ws[i]? = some w ∧ w.ok = true

variable {ws : List WriteCall} {e : Endpoint}

theorem InOrder.of_eq {e' : Endpoint} (h : InOrder ws e)
    (hheld : e'.readBuf = e.readBuf) (htaken : e'.taken = e.taken) : InOrder ws e' := by
  obtain ⟨h1, h2⟩ := h
  refine ⟨?_, by rw [htaken]; exact h2⟩
  unfold Awaited at h1 ⊢
  rw [hheld, htaken]
  exact h1

theorem InOrder.mono {ws' : List WriteCall} (h : InOrder ws e)
    (hws : ws <+: ws') : InOrder ws' e := by
  refine ⟨fun seq d hd => ?_, fun i d hd => ?_⟩
  · obtain ⟨hlo, hhi, w, hw, hok⟩ := h.held seq d hd
    exact ⟨hlo, hhi, w, getElem?_eq_of_isPrefix hws hw, hok⟩
  · obtain ⟨horigin, w, hw, hok⟩ := h.taken i d hd
    exact ⟨horigin, w, getElem?_eq_of_isPrefix hws hw, hok⟩

theorem origin_eq_of_awaited {origin : Nat} (h : Awaited ws e origin)
    (hseq : UInt16.ofNat e.taken.length = UInt16.ofNat origin) : origin = e.taken.length := by
  obtain ⟨hlo, hhi, -⟩ := h
  rw [ofNat_uint16_eq_iff] at hseq
  omega

theorem InOrder.read (h : InOrder ws e) (hinv : ReceiverInv ws e) {n : Nat} {e' : Endpoint}
    (hr : ReadCase e n e') : InOrder ws e' := by
  cases hr with
  | pending => exact h.of_eq rfl rfl
  | eof => exact h
  | takes d hpend hd =>
    -- the number that `Read` looks for is that of the first call not taken yet
    obtain ⟨hseq, -⟩ := hinv.held _ _ hd
    have horigin : d.origin = e.taken.length :=
      origin_eq_of_awaited (h.held _ _ hd) (by rw [← hinv.readSeq, hseq])
    refine ⟨fun seq d' hd' => ?_, fun i d' hd' => ?_⟩
    · -- another key cannot belong to the frame just taken
      obtain ⟨hne, hd'⟩ := (lookup_erase_eq_some_iff _ _ _ _).1 hd'
      obtain ⟨hlo, hhi, hw⟩ := h.held seq d' hd'
      have hne' : d'.origin ≠ e.taken.length := by
        intro heq
        apply hne
        rw [(hinv.held seq d' hd').1, heq, hinv.readSeq]
      simp only [Awaited, length_append, length_singleton]
      exact ⟨by omega, by omega, hw⟩
    · rcases Nat.lt_trichotomy i e.taken.length with hi | hi | hi
      · rw [getElem?_append_left hi] at hd'
        exact h.taken i d' hd'
      · subst hi
        simp only [getElem?_concat_length, Option.some.injEq] at hd'
        subst hd'
        obtain ⟨-, -, w, hw, hok⟩ := h.held _ _ hd
        rw [horigin] at hw
        exact ⟨horigin, w, hw, hok⟩
      · rw [getElem?_eq_none (by simp; omega)] at hd'
        cases hd'

theorem InOrder.handleData (h : InOrder ws e) (d : Tagged)
    (hd : e.readBuf.keys.length < reliableWindowSize → Awaited ws e d.origin) :
    InOrder ws (e.handleData (UInt16.ofNat d.origin) d).1 := by
  refine ⟨fun seq d' hd' => ?_, h.taken⟩
  simp only [Endpoint.handleData] at hd'
  split_ifs at hd' with hroom
  · rcases (lookup_insert_eq_some_iff _ _ _ _ _).1 hd' with ⟨rfl, rfl⟩ | ⟨-, hd'⟩
    · exact hd hroom
    · exact h.held seq d' hd'
  · exact h.held seq d' hd'

def Net.Ordered (net : Net) : Prop :=
  ∀ s : Side, InOrder (net.ep s).writes (net.ep s.peer)

variable {net : Net}

theorem Net.Ordered.set (h : net.Ordered) (s : Side) {r : Endpoint × List Tagged}
    (hreceiver : InOrder (net.ep s.peer).writes r.1) (hws : (net.ep s).writes <+: r.1.writes) :
    (net.set s r).Ordered := by
  intro x
  rcases s.eq_or_eq_peer x with rfl | rfl
  · simp only [Net.ep_set_self, Net.ep_set_peer]
    exact (h x).mono hws
  · simp only [Net.ep_set_peer, Side.peer_peer, Net.ep_set_self]
    exact hreceiver

theorem Net.Ordered.receiver (h : net.Ordered) (s : Side) :
    InOrder (net.ep s.peer).writes (net.ep s) := by
  have hr := h s.peer
  rwa [Side.peer_peer] at hr

theorem Net.ordered_init : Net.Ordered {} := by
  intro s
  cases s <;> exact ⟨by simp [Net.ep, Side.peer], by simp [Net.ep, Side.peer]⟩

theorem fitsOk_of_streamOk {act : Action} (h : StreamOk net act) : FitsOk net act := by
  cases act <;> first | exact h | trivial

theorem isDataFrame_encodeFrame {seq : UInt16} {flags : UInt8} (payload : Bytes)
    (hflags : flags = reliableFlagData ∨ flags = reliableFlagRetransmit) :
    isDataFrame (encodeFrame seq flags payload) = true := by
  simpa [isDataFrame, encodeFrame, putUint16] using hflags

/-- **One step that meets the condition keeps the stream in order.** -/
theorem step_ordered {net' : Net} {act : Action} (hinv : net.Inv) (h : net.Ordered)
    (hok : StreamOk net act) (hstep : step net act = some net') : net'.Ordered := by
  cases step_cases hstep with
  | write s p innerOk => exact h.set s ((h.receiver s).of_eq rfl rfl) (prefix_append _ _)
  | read s n e hr =>
    obtain ⟨-, -, hws, -, -⟩ := hr.sender_fields
    exact h.set s ((h.receiver s).read (hinv.receiver s) hr) (hws ▸ prefix_refl _)
  | poll s i e _ he =>
    obtain ⟨-, -, hws, -, hheld, htaken, -⟩ := poll_fields he
    exact h.set s ((h.receiver s).of_eq hheld htaken) (hws ▸ prefix_refl _)
  | handle s pkt hpkt =>
    have hgen := hinv.hand hpkt
    rcases handle_genuine hgen (net.ep s) with ⟨d, -, horigin, heq⟩ | heq
    · rw [heq]
      refine h.set s ((h.receiver s).handleData d fun hroom => ?_) (prefix_refl _)
      rw [horigin]
      -- the packet is no acknowledgement: only the data branch sends one
      cases hgen with
      | data w flags hw hflags hbytes =>
        exact hok pkt hpkt (by rw [hbytes]; exact isDataFrame_encodeFrame _ hflags) hroom
      | ack hbytes =>
        obtain ⟨bytes, origin⟩ := pkt
        simp only at hbytes
        subst hbytes
        rw [handle_ack] at heq
        exact absurd (congrArg Prod.snd heq) (by simp [Endpoint.handleData])
    · rw [heq]
      exact h.set s ((h.receiver s).of_eq rfl rfl) (prefix_refl _)
  | retransmit s | close s => exact h.set s ((h.receiver s).of_eq rfl rfl) (prefix_refl _)
  | tick d =>
    intro x
    simp only [Net.ep_tick]
    exact h x

theorem reachable_ordered (h : Reachable StreamOk net) : net.Inv ∧ net.Ordered := by
  refine h.invariant (fun net => net.Inv ∧ net.Ordered) ⟨Net.inv_init, Net.ordered_init⟩ ?_
  rintro net act net' ⟨hinv, hord⟩ hok hstep
  exact ⟨step_inv hinv (fitsOk_of_streamOk hok) hstep, step_ordered hinv hord hok hstep⟩

theorem taken_bytes_eq (hinv : ReceiverInv ws e) (h : InOrder ws e) :
    e.taken.map Tagged.bytes = (ws.take e.taken.length).map WriteCall.payload := by
  apply ext_getElem?
  intro i
  by_cases hi : i < e.taken.length
  · have hd : e.taken[i]? = some e.taken[i] := getElem?_eq_getElem hi
    obtain ⟨horigin, w, hw, -⟩ := h.taken i _ hd
    obtain ⟨w', hw', hbytes⟩ := hinv.taken _ (mem_of_getElem? hd)
    rw [horigin, hw] at hw'
    cases hw'
    simp [hi, hw, hbytes]
  · grind

theorem filter_ok_take (h : InOrder ws e) :
    (ws.take e.taken.length).filter WriteCall.ok = ws.take e.taken.length := by
  rw [filter_eq_self]
  intro w hw
  obtain ⟨i, hi, rfl⟩ := getElem_of_mem hw
  rw [length_take] at hi
  have hd : e.taken[i]? = some e.taken[i] := getElem?_eq_getElem (by omega)
  obtain ⟨-, w, hw, hok⟩ := h.taken i _ hd
  rw [getElem?_eq_getElem (by omega), Option.some.injEq] at hw
  rw [getElem_take, hw, hok]

/-- **Stream safety** in every run whose stored data frames are awaited. -/
theorem streamSafe_of_reachable {net : Net} (h : Reachable StreamOk net) (s : Side) :
    StreamSafe net s := by
  obtain ⟨hinv, hord⟩ := reachable_ordered h
  have hr := (hinv s).2
  have ho := hord s
  have hreturned : (net.ep s.peer).returned <+:
      (((net.ep s).writes.take (net.ep s.peer).taken.length).map WriteCall.payload).flatten := by
    rw [← taken_bytes_eq hr ho, ← hr.stream]
    exact prefix_append _ _
  -- the calls taken so far all succeeded, so filtering does not touch them
  refine hreturned.trans ?_
  obtain ⟨rest, hrest⟩ :=
    ((List.take_prefix (net.ep s.peer).taken.length (net.ep s).writes).filter WriteCall.ok).map
      WriteCall.payload
  rw [writtenBytes, ← hrest, filter_ok_take ho, flatten_append]
  exact prefix_append _ _

def shortRun : List Action := [.write .a [7, 8] true, .poll .b 0, .handle .b, .read .b 1]

theorem streamSafe_shortRun : ∃ net, run step {} shortRun = some net ∧
    (net.ep .b).returned = [7] ∧ StreamSafe net .a := by
  have hok : AllSteps step StreamOk {} shortRun := by
    intro net₁ h₁
    cases h₁
    refine ⟨by simp [StreamOk, reliableHeaderSize, receiveBufSize], fun net₂ h₂ => ?_⟩
    cases h₂
    refine ⟨trivial, fun net₃ h₃ => ?_⟩
    cases h₃
    refine ⟨fun pkt hpkt _ _ => ?_, fun net₄ h₄ => ⟨trivial, trivial⟩⟩
    cases hpkt
    exact ⟨by decide, by decide, ⟨[7, 8], true⟩, rfl, rfl⟩
  have hrun : run step {} shortRun = some _ := rfl
  exact ⟨_, hrun, rfl, streamSafe_of_reachable (reaches_of_allSteps hrun hok) .a⟩

/-- 65536 writes whose packets are late, and one more whose packet arrives. -/
def wrapRun : List Action :=
  floodRun 65536 ++ [.write .a [1] true, .poll .b 65536, .handle .b, .read .b 1]

theorem writtenBytes_flood (n : Nat) (ws : List WriteCall) :
    writtenBytes (replicate (n + 1) ⟨[0], true⟩ ++ ws) =
      0 :: writtenBytes (replicate n ⟨[0], true⟩ ++ ws) := by
  rw [replicate_succ]
  rfl

theorem read_after_frame_zero (origin : Nat) :
    ∃ r, ((({} : Endpoint).accept ⟨encodeFrame 0 reliableFlagData [1], origin⟩).handle
      ⟨encodeFrame 0 reliableFlagData [1], origin⟩).1.read 1 = some r ∧ r.1.returned = [1] :=
  ⟨_, rfl, rfl⟩

theorem wrapRun_not_streamSafe :
    ∃ net, run step {} wrapRun = some net ∧ ¬ StreamSafe net .a := by
  obtain ⟨net, hrun, hnet⟩ := run_flood 65536
  have hseq : (net.ep .a).writeSeq = 0 := hnet.writeSeq
  have hws : (net.ep .a).writes = replicate 65536 ⟨[0], true⟩ := hnet.writes
  have hB : net.ep .b = {} := hnet.epB
  have hlen : (net.wire .a).length = 65536 := by
    have hw : net.wire .a = _ := hnet.wireA
    rw [hw, length_map, length_range]
  -- the last write: its packet sits at position 65536 and carries the number 0
  let net₁ : Net := net.set .a ((net.ep .a).write net.now [1] true)
  have hep : net₁.ep .b = {} := hB
  have hpkt : (net₁.wire .a)[65536]? =
      some ⟨encodeFrame 0 reliableFlagData [1], (net.ep .a).writes.length⟩ := by
    show (net.wire .a ++ [_])[65536]? = _
    rw [← hlen, getElem?_concat_length, hseq]
  have hdeliver := run_deliver (s := .b) (i := 65536) (hep ▸ ⟨rfl, rfl, rfl, rfl⟩) hpkt
    (by rw [length_encodeFrame]; decide)
  rw [hep] at hdeliver
  generalize hr₂ : (({} : Endpoint).accept _).handle _ = r₂ at hdeliver
  -- the byte is delivered although 65536 earlier bytes are not
  obtain ⟨r, hread, hreturned⟩ := read_after_frame_zero (net.ep .a).writes.length
  rw [hr₂] at hread
  have hlast : step (net₁.set .b r₂) (.read .b 1) = some ((net₁.set .b r₂).set .b (r.1, [])) := by
    simp [step, hread]
  refine ⟨(net₁.set .b r₂).set .b (r.1, []), ?_, ?_⟩
  · calc run step {} wrapRun
        = run step net [.write .a [1] true, .poll .b 65536, .handle .b, .read .b 1] := by
          rw [wrapRun, run_append, hrun]
          rfl
      _ = run step net₁ ([.poll .b 65536, .handle .b] ++ [.read .b 1]) := rfl
      _ = some ((net₁.set .b r₂).set .b (r.1, [])) := by
          rw [run_append, hdeliver]
          simp [run, hlast]
  · intro hsafe
    have hprefix : r.1.returned <+: writtenBytes ((net.ep .a).writes ++ [⟨[1], true⟩]) := hsafe
    rw [hreturned, hws, writtenBytes_flood 65535, cons_prefix_cons] at hprefix
    exact absurd hprefix.1 (by decide)

end NatProxy.WebRTC.ReliableRTP
