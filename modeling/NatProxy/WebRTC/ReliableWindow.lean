import NatProxy.WebRTC.ReliableInvariant

/-!
# The receive window

`receiveLoop` bounds `readBuf` by its number of entries, whatever their sequence numbers are. When
all `reliableWindowSize` slots are taken and the number that `Read` waits for is not among them, no
frame can be stored any more and the stream is stuck (`DeadWindow`). One late frame is enough
(`deadRun_deadWindow`).

A run stays clear of dead windows exactly if the last free slot is never given to a frame that
`Read` does not wait for while the one it waits for is missing (`noDeadWindow_iff`).
-/

namespace NatProxy.WebRTC.ReliableRTP

open Lib List

/-- The window is full and does not hold the frame that `Read` waits for. -/
def DeadWindow (e : Endpoint) : Prop :=
  e.readBuf.keys.length = reliableWindowSize ∧ e.readSeq ∉ e.readBuf

/-- Neither side has one. -/
def NoDeadWindow (net : Net) : Prop := ∀ s : Side, ¬ DeadWindow (net.ep s)

/-- A new data frame goes to the last free slot only if `Read` waits for it, or the one that `Read`
waits for is held. -/
def WindowOk (net : Net) : Action → Prop
  | .handle s => ∀ pkt, (net.ep s).inHand = some pkt → isDataFrame pkt.bytes = true →
      (net.ep s).readBuf.keys.length + 1 = reliableWindowSize →
      frameSeq pkt.bytes ∈ (net.ep s).readBuf ∨ frameSeq pkt.bytes = (net.ep s).readSeq ∨
        (net.ep s).readSeq ∈ (net.ep s).readBuf
  | _ => True

/-- The window bound that `receiveLoop` enforces. -/
def WindowBound (net : Net) : Prop :=
  ∀ s : Side, (net.ep s).readBuf.keys.length ≤ reliableWindowSize

/-! ## One step -/

theorem length_keys_handleData (e : Endpoint) (seq : UInt16) (d : Tagged)
    (h : e.readBuf.keys.length ≤ reliableWindowSize) :
    (e.handleData seq d).1.readBuf.keys.length ≤ reliableWindowSize := by
  simp only [Endpoint.handleData]
  split_ifs with hroom
  · by_cases hmem : seq ∈ e.readBuf
    · rw [length_keys_insert_of_mem _ hmem]
      exact h
    · rw [length_keys_insert_of_notMem _ hmem]
      exact hroom
  · exact h

theorem deadWindow_congr {e e' : Endpoint} (hbuf : e'.readBuf = e.readBuf)
    (hseq : e'.readSeq = e.readSeq) : DeadWindow e' ↔ DeadWindow e := by
  unfold DeadWindow
  rw [hbuf, hseq]

theorem deadWindow_handleData_iff {e : Endpoint} (seq : UInt16) (d : Tagged)
    (hlive : ¬ DeadWindow e) :
    ¬ DeadWindow (e.handleData seq d).1 ↔
      (e.readBuf.keys.length + 1 = reliableWindowSize →
        seq ∈ e.readBuf ∨ seq = e.readSeq ∨ e.readSeq ∈ e.readBuf) := by
  by_cases hroom : e.readBuf.keys.length < reliableWindowSize
  · by_cases hmem : seq ∈ e.readBuf
    · -- an entry is replaced: the number of entries stays below the bound
      refine ⟨fun _ _ => .inl hmem, fun _ hdead => ?_⟩
      have hlen := hdead.1
      simp only [Endpoint.handleData, if_pos hroom, length_keys_insert_of_mem _ hmem] at hlen
      omega
    · have hdead : DeadWindow (e.handleData seq d).1 ↔
          e.readBuf.keys.length + 1 = reliableWindowSize ∧
            ¬ (e.readSeq = seq ∨ e.readSeq ∈ e.readBuf) := by
        simp only [DeadWindow, Endpoint.handleData, if_pos hroom, AList.mem_insert,
          length_keys_insert_of_notMem _ hmem]
      rw [hdead]
      constructor
      · grind
      · grind
  · -- the window is full already: the frame is dropped
    refine ⟨fun _ hlast => absurd hlast (by omega), fun _ hdead => hlive ?_⟩
    have hbuf : (e.handleData seq d).1.readBuf = e.readBuf := by
      simp only [Endpoint.handleData, if_neg hroom]
    exact (deadWindow_congr hbuf rfl).1 hdead

theorem ReadCase.window {e e' : Endpoint} {n : Nat} (hr : ReadCase e n e') :
    (e'.readBuf = e.readBuf ∧ e'.readSeq = e.readSeq) ∨
      e'.readBuf.keys.length < e.readBuf.keys.length := by
  cases hr with
  | pending | eof => exact .inl ⟨rfl, rfl⟩
  | takes d hpend hd =>
    grind [AList.lookup_isSome, length_keys_erase_of_mem]

theorem noDeadWindow_set_iff {net : Net} (h : NoDeadWindow net) (s : Side)
    (r : Endpoint × List Tagged) : NoDeadWindow (net.set s r) ↔ ¬ DeadWindow r.1 := by
  constructor
  · intro hall
    have hs := hall s
    rwa [Net.ep_set_self] at hs
  · intro hs x
    rcases s.eq_or_eq_peer x with rfl | rfl
    · rwa [Net.ep_set_self]
    · rw [Net.ep_set_peer]
      exact h s.peer

theorem WindowBound.set {net : Net} (h : WindowBound net) (s : Side) {r : Endpoint × List Tagged}
    (hr : r.1.readBuf.keys.length ≤ reliableWindowSize) : WindowBound (net.set s r) := by
  intro x
  rcases s.eq_or_eq_peer x with rfl | rfl
  · rwa [Net.ep_set_self]
  · rw [Net.ep_set_peer]
    exact h s.peer

theorem step_windowBound (net : Net) (act : Action) (net' : Net) (h : WindowBound net)
    (hstep : step net act = some net') : WindowBound net' := by
  cases step_cases hstep with
  | write s p innerOk => exact h.set s (h s)
  | read s n e hr =>
    refine h.set s ?_
    rcases hr.window with ⟨hbuf, -⟩ | hlt
    · rw [hbuf]
      exact h s
    · exact Nat.le_trans (Nat.le_of_lt hlt) (h s)
  | poll s i e _ he =>
    obtain ⟨-, -, -, -, hbuf, -, -⟩ := poll_fields he
    exact h.set s (hbuf ▸ h s)
  | handle s pkt _ =>
    rcases handle_cases (net.ep s) pkt with ⟨-, payload, heq⟩ | ⟨-, hbuf, -⟩
    · rw [heq]
      exact h.set s (length_keys_handleData _ _ _ (h s))
    · exact h.set s (by rw [hbuf]; exact h s)
  | retransmit s | close s => exact h.set s (h s)
  | tick d =>
    intro x
    rw [Net.ep_tick]
    exact h x

/-- **One step keeps dead windows away exactly if it meets the condition.** -/
theorem step_noDeadWindow_iff (net : Net) (act : Action) (net' : Net) (hbound : WindowBound net)
    (h : NoDeadWindow net) (hstep : step net act = some net') :
    NoDeadWindow net' ↔ WindowOk net act := by
  cases step_cases hstep with
  | write s p innerOk =>
    rw [noDeadWindow_set_iff h]
    exact iff_of_true (h s) trivial
  | read s n e hr =>
    rw [noDeadWindow_set_iff h]
    refine iff_of_true ?_ trivial
    rcases hr.window with ⟨hbuf, hseq⟩ | hlt
    · rw [deadWindow_congr hbuf hseq]
      exact h s
    · -- an entry was taken out, so the window is not full
      intro hdead
      have hle := hbound s
      have hfull : e.readBuf.keys.length = reliableWindowSize := hdead.1
      omega
  | poll s i e _ he =>
    rw [noDeadWindow_set_iff h]
    obtain ⟨-, -, -, -, hbuf, -, hseq⟩ := poll_fields he
    rw [deadWindow_congr hbuf hseq]
    exact iff_of_true (h s) trivial
  | handle s pkt hpkt =>
    rw [noDeadWindow_set_iff h]
    have hok : WindowOk net (.handle s) ↔ (isDataFrame pkt.bytes = true →
        (net.ep s).readBuf.keys.length + 1 = reliableWindowSize →
        frameSeq pkt.bytes ∈ (net.ep s).readBuf ∨ frameSeq pkt.bytes = (net.ep s).readSeq ∨
          (net.ep s).readSeq ∈ (net.ep s).readBuf) := by
      simp [WindowOk, hpkt]
    rw [hok]
    -- only the data branch can fill the window
    rcases handle_cases (net.ep s) pkt with ⟨hdata, payload, heq⟩ | ⟨hdata, hbuf, hseq⟩
    · rw [heq, deadWindow_handleData_iff _ _ (h s)]
      simp [hdata]
    · rw [deadWindow_congr hbuf hseq]
      exact iff_of_true (h s) (fun hd => by rw [hdata] at hd; cases hd)
  | retransmit s | close s =>
    rw [noDeadWindow_set_iff h]
    exact iff_of_true (h s) trivial
  | tick d =>
    refine iff_of_true (fun x => ?_) trivial
    rw [Net.ep_tick]
    exact h x

/-! ## Whole runs -/

theorem noDeadWindow_init : NoDeadWindow {} := by
  intro s
  cases s <;> exact fun h => absurd h.1 (by decide)

theorem windowBound_init : WindowBound {} := by
  intro s
  cases s <;> exact Nat.zero_le _

/-- **Dead windows** come exactly from giving away the last free slot. -/
theorem noDeadWindow_iff (acts : List Action) :
    AllStates step NoDeadWindow {} acts ↔ AllSteps step WindowOk {} acts :=
  allStates_iff_allSteps step_windowBound step_noDeadWindow_iff acts {} windowBound_init
    noDeadWindow_init

/-! ## A window filled behind a late frame -/

def deliverRun (is : List Nat) : List Action := is.flatMap fun i => [.poll .b i, .handle .b]

/-- The packets 1 to `k` of `n` were delivered to `b`, held and acknowledged. -/
structure Filled (n k : Nat) (net : Net) : Prop where
  sender : Flooded n { net with epB := {}, wireB := [] }
  idle : (net.ep .b).Idle
  readSeq : (net.ep .b).readSeq = 0
  taken : (net.ep .b).taken = []
  length : (net.ep .b).readBuf.keys.length = k
  held : ∀ seq d, (net.ep .b).readBuf.lookup seq = some d →
    seq = UInt16.ofNat d.origin ∧ 1 ≤ d.origin ∧ d.origin ≤ k
  acks : (net.wire .b).length = k

theorem Flooded.wire_getElem? {n : Nat} {net : Net} (h : Flooded n net) {i : Nat} (hi : i < n) :
    (net.wire .a)[i]? = some (floodPacket i) := by
  have hw : net.wire .a = _ := h.wireA
  rw [hw, getElem?_map, getElem?_range hi]
  rfl

theorem length_floodPacket_le (i : Nat) : (floodPacket i).bytes.length ≤ receiveBufSize := by
  rw [floodPacket, length_encodeFrame]
  decide

theorem handle_floodPacket (e : Endpoint) (i : Nat) :
    (e.accept (floodPacket i)).handle (floodPacket i) =
      (e.accept (floodPacket i)).handleData (UInt16.ofNat i) ⟨[0], i⟩ :=
  handle_data (.inl rfl) _ _ _

theorem Filled.deliver {n k : Nat} {net : Net} (h : Filled n k net) (hk : k < reliableWindowSize)
    (hn : k + 1 < n) : ∃ net', run step net [.poll .b (k + 1), .handle .b] = some net' ∧
      Filled n (k + 1) net' := by
  have hpkt : (net.wire .a)[k + 1]? = some (floodPacket (k + 1)) := h.sender.wire_getElem? hn
  have hrun := run_deliver h.idle hpkt (length_floodPacket_le _)
  rw [handle_floodPacket] at hrun
  have hroom : (net.ep .b).readBuf.keys.length < reliableWindowSize := by rw [h.length]; exact hk
  have hbuf : (((net.ep .b).accept (floodPacket (k + 1))).handleData (UInt16.ofNat (k + 1))
      ⟨[0], k + 1⟩).1.readBuf = (net.ep .b).readBuf.insert (UInt16.ofNat (k + 1)) ⟨[0], k + 1⟩ :=
    if_pos hroom
  -- the numbers of 256 packets in a row are all different
  have hnew : UInt16.ofNat (k + 1) ∉ (net.ep .b).readBuf := by
    intro hmem
    obtain ⟨d, hd⟩ := Option.isSome_iff_exists.1 (AList.lookup_isSome.2 hmem)
    obtain ⟨hseq, hlo, hhi⟩ := h.held _ d hd
    rw [ofNat_uint16_eq_iff] at hseq
    have hwindow : k < 256 := hk
    omega
  refine ⟨_, hrun, h.sender, ?_, h.readSeq, h.taken, ?_, ?_, ?_⟩
  · obtain ⟨hrecv, -, hdone, -⟩ := h.idle
    exact ⟨hrecv, rfl, hdone, drop_eq_nil_of_le (length_floodPacket_le _)⟩
  · rw [Net.ep_set_self, hbuf, length_keys_insert_of_notMem _ hnew, h.length]
  · intro seq d hd
    rw [Net.ep_set_self, hbuf] at hd
    rcases (lookup_insert_eq_some_iff _ _ _ _ _).1 hd with ⟨rfl, rfl⟩ | ⟨-, hd⟩
    · exact ⟨rfl, Nat.le_add_left 1 k, Nat.le_refl _⟩
    · obtain ⟨hseq, hlo, hhi⟩ := h.held seq d hd
      exact ⟨hseq, hlo, by omega⟩
  · show (net.wire .b ++ [_]).length = k + 1
    rw [length_append, h.acks, length_singleton]

theorem run_fill (n k : Nat) (hk : k ≤ reliableWindowSize) (hn : k < n) :
    ∃ net, run step {} (floodRun n ++ deliverRun (range' 1 k)) = some net ∧
      Filled n k net := by
  induction k with
  | zero =>
    obtain ⟨net, hrun, hnet⟩ := run_flood n
    have hB : net.ep .b = {} := hnet.epB
    have hempty : { net with epB := {}, wireB := [] } = net := by
      rw [← hnet.epB, ← hnet.wireB]
    refine ⟨net, by simpa [deliverRun] using hrun, by rw [hempty]; exact hnet, ?_, ?_, ?_, ?_, ?_,
      ?_⟩
    · rw [hB]
      exact ⟨rfl, rfl, rfl, rfl⟩
    · rw [hB]
    · rw [hB]
    · rw [hB]
      rfl
    · simp [hB]
    · exact congrArg length hnet.wireB
  | succ k ih =>
    obtain ⟨net, hrun, hnet⟩ := ih (by omega) (by omega)
    obtain ⟨net', hrun', hnet'⟩ := hnet.deliver (by omega) hn
    refine ⟨net', ?_, hnet'⟩
    have hsplit : floodRun n ++ deliverRun (range' 1 (k + 1)) =
        (floodRun n ++ deliverRun (range' 1 k)) ++ [.poll .b (k + 1), .handle .b] := by
      rw [range'_1_concat, deliverRun, flatMap_append, ← deliverRun, Nat.add_comm 1 k]
      simp
    rw [hsplit, run_append, hrun]
    exact hrun'

/-- The first of 257 packets is late, and the other 256 arrive. -/
def deadRun : List Action := floodRun 257 ++ deliverRun (range' 1 256)

theorem deadRun_deadWindow :
    ∃ net, run step {} deadRun = some net ∧ DeadWindow (net.ep .b) := by
  obtain ⟨net, hrun, hnet⟩ := run_fill 257 256 (Nat.le_refl _) (by decide)
  -- packet 0, which `Read` waits for, is not among the packets held
  refine ⟨net, hrun, hnet.length, fun hmem => ?_⟩
  obtain ⟨d, hd⟩ := Option.isSome_iff_exists.1 (AList.lookup_isSome.2 hmem)
  obtain ⟨hseq, hlo, hhi⟩ := hnet.held _ d hd
  rw [hnet.readSeq, show (0 : UInt16) = UInt16.ofNat 0 from rfl, ofNat_uint16_eq_iff] at hseq
  omega

end NatProxy.WebRTC.ReliableRTP
