import NatProxy.WebRTC.PaddedStream
import Mathlib.Data.List.Induction

/-!
# The round trip of the padded stream

`Write` stores `uint16(len(p))` and never splits a payload, so a payload, a pad or a decoy of 65536
bytes or more announces a wrong length. `roundTrip_iff` says that this is the only way to lose the
stream: a sequence of calls comes through in every run, for every random choice and every sequence
of read sizes, exactly if all its lengths fit the 16-bit field.

One direction is an invariant (`Synced`): the pipe holds the encodings of a list of well-sized
frames, and what was returned, what `readBuf` holds and what these frames carry make up what was
written. For the other direction a run reads everything up to the first misfit call
(`exists_drained`), makes this call, and then takes a byte of a pad or a decoy for payload
(`not_roundTrip_of_leak`), or runs out of bytes (`not_roundTrip_of_starved`).
-/

namespace NatProxy.WebRTC.PaddedStream

open Lib List

/-! ## Calls and the round-trip property -/

inductive Call where
  | write (p : Bytes)
  | writeDecoy (size : Int)
  | writeBurstEnd
deriving DecidableEq, Repr

def Event.call : Event → Option Call
  | .write _ p => some (.write p)
  | .writeDecoy size _ => some (.writeDecoy size)
  | .writeBurstEnd => some .writeBurstEnd
  | .burst _ | .read _ | .close => none

def callsOf (evs : List Event) : List Call := evs.filterMap Event.call

/-- A call of `Read` would now return no byte: it would wait or fail. -/
def Conn.Exhausted (s : Conn) : Prop :=
  s.readBuf = [] ∧ ∀ p rest, nextPayload s.wire ≠ .ok (p, rest)

/-- `Read` has returned the written bytes in order, and all of them at the end. -/
structure RoundTrip (s : Conn) : Prop where
  inOrder : s.returned <+: s.written
  complete : s.Exhausted → s.returned = s.written

/-- The longest pad that `Write` can draw. -/
def PadConfig.largestPad (cfg : PadConfig) : Nat :=
  if cfg.minPad < cfg.maxPad then cfg.maxPad - 1
  else if 0 < cfg.maxPad then cfg.minPad
  else 0

/-- All lengths that the call can put on the wire fit a 16-bit field. -/
def Call.Fits (cfg : PadConfig) : Call → Prop
  | .write p => p.length < 65536 ∧ cfg.largestPad < 65536
  | .writeDecoy size => size < 65536
  | .writeBurstEnd => True

theorem PadConfig.allows_largestPad (cfg : PadConfig) : cfg.Allows cfg.largestPad := by
  unfold PadConfig.Allows PadConfig.largestPad
  split_ifs <;> omega

variable {cfg : PadConfig} {n : Nat}

theorem PadConfig.Allows.le_largestPad (h : cfg.Allows n) : n ≤ cfg.largestPad := by
  unfold PadConfig.Allows at h
  unfold PadConfig.largestPad
  split_ifs at h ⊢ <;> omega

theorem nextPayload_nil : nextPayload [] = .error (.inner .eof, []) :=
  nextPayload_of_fail rfl

/-! ## Calls that fit keep reader and writer in step -/

/-- The pipe holds the frames `fs`, and no payload byte is lost. -/
structure Synced (fs : List Frame) (s : Conn) : Prop where
  wire : s.wire = encode fs
  stream : s.returned ++ s.readBuf ++ payloads fs = s.written

def Event.bytes : Event → Bytes
  | .burst decoys => paddingBurst decoys
  | .write pad p => payloadFrame pad p
  | .writeDecoy _ data => decoyFrame data
  | .writeBurstEnd => [paddingFlagBurstEnd]
  | .read _ | .close => []

def Event.data : Event → Bytes
  | .write _ p => p
  | _ => []

variable {fs : List Frame} {e : Event} {s t : Conn}

theorem step_cases (h : step cfg s e = some t) :
    (t.wire = s.wire ++ e.bytes ∧ t.written = s.written ++ e.data ∧
        t.readBuf = s.readBuf ∧ t.returned = s.returned) ∨
      ∃ n, e = .read n ∧ ∃ out, s.read n = some (t, out) := by
  cases e with
  | read n =>
    simp only [step, Option.map_eq_some_iff] at h
    obtain ⟨⟨u, out⟩, hread, rfl⟩ := h
    exact .inr ⟨n, rfl, out, hread⟩
  | close =>
    cases h
    exact .inl ⟨(append_nil _).symm, (append_nil _).symm, rfl, rfl⟩
  | _ =>
    simp only [step] at h
    split_ifs at h
    cases h
    exact .inl ⟨rfl, by simp [Event.data], rfl, rfl⟩

theorem exists_decoys {decoys : List Bytes} (h : ∀ d ∈ decoys, d.length < 65536) :
    ∃ fs, encode fs = (decoys.map decoyFrame).flatten ∧ payloads fs = [] := by
  induction decoys with
  | nil => exact ⟨[], rfl, rfl⟩
  | cons d decoys ih =>
    obtain ⟨fs, hbytes, hnone⟩ := ih fun d hd => h d (mem_cons_of_mem _ hd)
    refine ⟨.decoy d (h d mem_cons_self) :: fs, ?_, hnone⟩
    rw [map_cons, flatten_cons, ← hbytes]
    rfl

theorem exists_burst {decoys : List Bytes} (h : BurstDrawn decoys) :
    ∃ fs, encode fs = paddingBurst decoys ∧ payloads fs = [] := by
  obtain ⟨fs, hbytes, hnone⟩ := exists_decoys fun d hd => by have := h.2 d hd; omega
  refine ⟨fs ++ [.burstEnd], ?_, ?_⟩
  · rw [encode, flatMap_append, paddingBurst, ← hbytes]
    rfl
  · rw [payloads, flatMap_append]
    exact append_eq_nil_iff.mpr ⟨hnone, rfl⟩

theorem exists_frames (h : step cfg s e = some t) (hcall : ∀ c, e.call = some c → c.Fits cfg) :
    ∃ fs, encode fs = e.bytes ∧ payloads fs = e.data := by
  cases e with
  | burst decoys =>
    simp only [step] at h
    split_ifs at h with hd
    exact exists_burst hd.2.2
  | write pad p =>
    simp only [step] at h
    split_ifs at h with hd
    obtain ⟨hp, hpad⟩ := hcall _ rfl
    have hle := hd.2.2.le_largestPad
    rw [Event.bytes, payloadFrame]
    split_ifs with hzero
    · exact ⟨[.plain p hp], append_nil _, append_nil _⟩
    · exact ⟨[.padded pad p (by omega) hp], append_nil _, append_nil _⟩
  | writeDecoy size data =>
    simp only [step] at h
    split_ifs at h with hd
    have hsize : size < 65536 := hcall _ rfl
    have hdata : data.length < 65536 := by
      have hdrawn := hd.2
      unfold DecoyDrawn at hdrawn
      split_ifs at hdrawn <;> omega
    exact ⟨[.decoy data hdata], append_nil _, rfl⟩
  | writeBurstEnd => exact ⟨[.burstEnd], rfl, rfl⟩
  | read n | close => exact ⟨[], rfl, rfl⟩

theorem Synced.read {out : Except ReadErr Bytes}
    (hs : Synced fs s) (h : s.read n = some (t, out)) : ∃ gs, Synced gs t := by
  unfold Conn.read at h
  split_ifs at h with hbuf
  · -- the leftover of the last payload moves from `readBuf` to `returned`
    cases h
    refine ⟨fs, hs.wire, ?_⟩
    rw [append_assoc s.returned, take_append_drop, hs.stream]
  · rw [not_not] at hbuf
    have hstream := hs.stream
    rw [hbuf, append_nil] at hstream
    have hcases := nextPayload_encode fs []
    simp only [append_nil, ← hs.wire] at hcases
    rcases hcases with ⟨hnone, hnext⟩ | ⟨p, gs, -, hpay, hnext⟩
    · -- no payload is left: the read fails, and only on a closed pipe
      rw [hnext, nextPayload_nil] at h
      dsimp only at h
      split_ifs at h
      cases h
      refine ⟨[], rfl, ?_⟩
      rw [hnone] at hstream
      simpa [hbuf, payloads] using hstream
    · rw [hnext] at h
      cases h
      refine ⟨gs, rfl, ?_⟩
      rw [append_assoc s.returned, take_append_drop, append_assoc, ← hpay, hstream]

/-- **Step.** A step whose call fits keeps reader and writer in step. -/
theorem Synced.step (hs : Synced fs s) (hcall : ∀ c, e.call = some c → c.Fits cfg)
    (h : step cfg s e = some t) : ∃ gs, Synced gs t := by
  rcases step_cases h with ⟨hwire, hwritten, hbuf, hret⟩ | ⟨n, rfl, out, hread⟩
  · obtain ⟨gs, hbytes, hdata⟩ := exists_frames h hcall
    refine ⟨fs ++ gs, ?_, ?_⟩
    · rw [hwire, hs.wire, ← hbytes, encode, encode, encode, flatMap_append]
    · rw [hret, hbuf, payloads, flatMap_append, ← append_assoc, hwritten, ← hdata]
      exact congrArg (· ++ payloads gs) hs.stream
  · exact hs.read hread

theorem Synced.roundTrip (hs : Synced fs s) : RoundTrip s := by
  refine ⟨⟨s.readBuf ++ payloads fs, ?_⟩, ?_⟩
  · rw [← append_assoc, hs.stream]
  · rintro ⟨hbuf, hnone⟩
    have hcases := nextPayload_encode fs []
    simp only [append_nil, ← hs.wire] at hcases
    rcases hcases with ⟨hpay, -⟩ | ⟨p, gs, -, -, hnext⟩
    · have hstream := hs.stream
      rwa [hpay, hbuf, append_nil, append_nil] at hstream
    · exact absurd hnext (hnone _ _)

/-- **Run.** In every run whose calls fit, the round trip holds. -/
theorem roundTrip_of_fits {evs : List Event} (hfits : ∀ c ∈ callsOf evs, c.Fits cfg)
    (h : run (step cfg) {} evs = some s) : RoundTrip s := by
  have hok : AllSteps (step cfg) (fun _ e => ∀ c, e.call = some c → c.Fits cfg) {} evs :=
    allSteps_of_forall_mem (fun e he _ c hc => hfits c (mem_filterMap.2 ⟨e, he, hc⟩)) _
  have hreach := reaches_of_allSteps h hok
  obtain ⟨fs, hs⟩ := hreach.invariant (fun s => ∃ fs, Synced fs s) ⟨[], rfl, rfl⟩
    (fun s e t ⟨_, hs⟩ hcall hstep => hs.step hcall hstep)
  exact hs.roundTrip

/-! ## A call that does not fit breaks the stream -/

/-- Some run with the given calls leads from `s` to `t`. -/
def Leads (cfg : PadConfig) (calls : List Call) (s t : Conn) : Prop :=
  ∃ evs, callsOf evs = calls ∧ run (step cfg) s evs = some t

theorem Leads.refl (cfg : PadConfig) (s : Conn) : Leads cfg [] s s := ⟨[], rfl, rfl⟩

theorem Leads.trans {c₁ c₂ : List Call} {u : Conn}
    (h₁ : Leads cfg c₁ s t) (h₂ : Leads cfg c₂ t u) : Leads cfg (c₁ ++ c₂) s u := by
  obtain ⟨evs₁, hc₁, hr₁⟩ := h₁
  obtain ⟨evs₂, hc₂, hr₂⟩ := h₂
  refine ⟨evs₁ ++ evs₂, ?_, ?_⟩
  · rw [callsOf, filterMap_append, ← hc₁, ← hc₂]
    rfl
  · rw [run_append, hr₁]
    exact hr₂

theorem Leads.single (h : step cfg s e = some t) : Leads cfg e.call.toList s t := by
  refine ⟨[e], ?_, ?_⟩
  · cases hc : e.call <;> simp [callsOf, hc]
  · rw [run_cons, h]
    rfl

theorem Leads.read {p rest : Bytes} (hbuf : s.readBuf = [])
    (hnext : nextPayload s.wire = .ok (p, rest)) :
    Leads cfg [] s { s with wire := rest, readBuf := [], returned := s.returned ++ p } := by
  apply Leads.single (e := .read p.length)
  simp [step, Conn.read, hbuf, hnext]

/-- The reader has returned everything written so far, and the pipe holds no payload. -/
structure Drained (s : Conn) : Prop where
  isOpen : s.closed = false
  readBuf : s.readBuf = []
  returned : s.returned = s.written
  wire : ∃ fs, payloads fs = [] ∧ s.wire = encode fs

theorem Drained.synced (h : Drained s) : ∃ fs, Synced fs s := by
  obtain ⟨fs, hnone, hwire⟩ := h.wire
  refine ⟨fs, hwire, ?_⟩
  rw [hnone, h.readBuf, h.returned, append_nil, append_nil]

theorem Drained.nextPayload (h : Drained s) (bytes : Bytes) :
    nextPayload (s.wire ++ bytes) = nextPayload bytes := by
  obtain ⟨fs, hnone, hwire⟩ := h.wire
  rw [hwire]
  rcases nextPayload_encode fs bytes with ⟨-, hnext⟩ | ⟨p, gs, hp, hpay, -⟩
  · exact hnext
  · rw [hpay, append_eq_nil_iff] at hnone
    exact absurd hnone.1 hp

/-- Reading on drains a connection in step. The induction is on the number of bytes before the
reader. -/
theorem Synced.drain (cfg : PadConfig) (hs : Synced fs s) (hopen : s.closed = false) :
    ∃ t, Leads cfg [] s t ∧ Drained t ∧ t.burstSent = s.burstSent := by
  induction hn : s.readBuf.length + s.wire.length using Nat.strongRecOn generalizing s fs with
  | _ n ih =>
    subst hn
    by_cases hbuf : s.readBuf = []
    · have hcases := nextPayload_encode fs []
      simp only [append_nil, ← hs.wire] at hcases
      rcases hcases with ⟨hnone, -⟩ | ⟨p, gs, hp, hpay, hnext⟩
      · refine ⟨s, Leads.refl cfg s, ⟨hopen, hbuf, ?_, fs, hnone, hs.wire⟩, rfl⟩
        have hstream := hs.stream
        rwa [hnone, hbuf, append_nil, append_nil] at hstream
      · have hlt := (nextPayload_consumes hnext).2
        have hsync : Synced gs
            { s with wire := encode gs, readBuf := [], returned := s.returned ++ p } := by
          refine ⟨rfl, ?_⟩
          rw [append_nil, append_assoc, ← hpay]
          have hstream := hs.stream
          rwa [hbuf, append_nil] at hstream
        obtain ⟨t, hlead, hdrained, hburst⟩ := ih _ (by simp [hbuf]; omega) hsync hopen rfl
        exact ⟨t, (Leads.read hbuf hnext).trans hlead, hdrained, hburst⟩
    · -- first the leftover of the last payload
      have hpos : 0 < s.readBuf.length := length_pos_iff.2 hbuf
      have hstep : PaddedStream.step cfg s (.read s.readBuf.length) =
          some { s with readBuf := [], returned := s.returned ++ s.readBuf } := by
        simp [PaddedStream.step, Conn.read, hbuf]
      have hsync : Synced fs { s with readBuf := [], returned := s.returned ++ s.readBuf } := by
        refine ⟨hs.wire, ?_⟩
        rw [append_nil, hs.stream]
      obtain ⟨t, hlead, hdrained, hburst⟩ := ih _ (by simp; omega) hsync hopen rfl
      exact ⟨t, (Leads.single hstep).trans hlead, hdrained, hburst⟩

theorem Drained.burst (cfg : PadConfig) (h : Drained s) :
    ∃ t, Leads cfg [] s t ∧ Drained t ∧ t.burstSent = true := by
  cases hb : s.burstSent with
  | true => exact ⟨s, Leads.refl cfg s, h, hb⟩
  | false =>
    have hstep : step cfg s (.burst (replicate 3 (replicate 64 0))) = some
        { s with
          burstSent := true
          wire := s.wire ++ paddingBurst (replicate 3 (replicate 64 0)) } := by
      rw [step, if_pos ⟨h.isOpen, hb, by decide⟩]
    obtain ⟨fs, hs⟩ := h.synced
    obtain ⟨gs, hsync⟩ := hs.step (fun c hc => by cases hc) hstep
    obtain ⟨t, hlead, hdrained, hburst⟩ := hsync.drain cfg h.isOpen
    exact ⟨t, (Leads.single hstep).trans hlead, hdrained, hburst⟩

theorem exists_drained {calls : List Call} (hfits : ∀ c ∈ calls, c.Fits cfg) :
    ∃ s, Leads cfg calls {} s ∧ Drained s := by
  induction calls using reverseRecOn with
  | nil => exact ⟨{}, Leads.refl cfg {}, rfl, rfl, rfl, [], rfl, rfl⟩
  | append_singleton calls c ih =>
    obtain ⟨s, hlead, hs⟩ := ih fun c hc => hfits c (mem_append_left _ hc)
    obtain ⟨t, hburstLead, ht, hburst⟩ := hs.burst cfg
    have hc : c.Fits cfg := hfits c (by simp)
    -- some event completes the call `c`
    obtain ⟨e, u, hcall, hstep, hopen⟩ : ∃ e u, e.call = some c ∧ step cfg t e = some u ∧
        u.closed = false := by
      cases c with
      | write p =>
        refine ⟨.write (replicate cfg.largestPad 0) p, _, rfl,
          if_pos ⟨ht.isOpen, hburst, ?_⟩, ht.isOpen⟩
        rw [length_replicate]
        exact cfg.allows_largestPad
      | writeDecoy size =>
        refine ⟨.writeDecoy size (replicate (if size ≤ 0 then 64 else size.toNat) 0), _,
          rfl, if_pos ⟨ht.isOpen, ?_⟩, ht.isOpen⟩
        rw [DecoyDrawn, length_replicate]
        split_ifs <;> omega
      | writeBurstEnd => exact ⟨.writeBurstEnd, _, rfl, if_pos ht.isOpen, ht.isOpen⟩
    obtain ⟨fs, hsync⟩ := ht.synced
    obtain ⟨gs, hsync'⟩ := hsync.step (fun c' hc' => by rw [hcall] at hc'; cases hc'; exact hc)
      hstep
    obtain ⟨v, hdrainLead, hv, -⟩ := hsync'.drain cfg hopen
    have hsingle := Leads.single hstep
    rw [hcall] at hsingle
    refine ⟨v, ?_, hv⟩
    have hall := ((hlead.trans hburstLead).trans hsingle).trans hdrainLead
    rwa [append_nil, append_nil] at hall

theorem not_roundTrip_of_leak (cfg : PadConfig) {x : UInt8} {rest : Bytes}
    (hbuf : s.readBuf = []) (hnext : nextPayload s.wire = .ok ([x], rest))
    (hx : ¬ s.returned ++ [x] <+: s.written) : ∃ t, Leads cfg [] s t ∧ ¬ RoundTrip t :=
  ⟨_, Leads.read hbuf hnext, fun h => hx h.inOrder⟩

/-- A reader with no more bytes than it owes ends without having returned them all. -/
theorem not_roundTrip_of_starved (cfg : PadConfig) {bytes : Bytes}
    (hbuf : s.readBuf = []) (hnext : nextPayload s.wire = nextPayload bytes)
    (howed : s.returned.length < s.written.length)
    (hlen : s.returned.length + bytes.length ≤ s.written.length) :
    ∃ t, Leads cfg [] s t ∧ ¬ RoundTrip t := by
  induction hn : bytes.length using Nat.strongRecOn generalizing s bytes with
  | _ n ih =>
    subst hn
    cases hout : nextPayload bytes with
    | error e =>
      refine ⟨s, Leads.refl cfg s, fun h => ?_⟩
      have hall := h.complete ⟨hbuf, fun p rest hp => by
        rw [hnext, hout] at hp
        cases hp⟩
      rw [hall] at howed
      exact Nat.lt_irrefl _ howed
    | ok out =>
      obtain ⟨p, rest⟩ := out
      have hlt := (nextPayload_consumes hout).2
      rw [hout] at hnext
      obtain ⟨t, hlead, ht⟩ := ih rest.length (by omega)
        (s := { s with wire := rest, readBuf := [], returned := s.returned ++ p }) rfl rfl
        (by rw [length_append]; show _ < s.written.length; omega)
        (by rw [length_append]; show _ + rest.length ≤ s.written.length; omega) rfl
      exact ⟨t, (Leads.read hbuf hnext).trans hlead, ht⟩

/-- Random bytes that make a reader who starts behind `skipped` return the byte `x`. -/
def leakyBytes (skipped : Bytes) (x : UInt8) (n : Nat) : Bytes :=
  skipped ++ (payloadFrame [] [x] ++ replicate (n - (skipped.length + 4)) 0)

theorem length_leakyBytes {skipped : Bytes} {x : UInt8} (h : skipped.length + 4 ≤ n) :
    (leakyBytes skipped x n).length = n := by
  have hframe : (payloadFrame [] [x]).length = 4 := rfl
  rw [leakyBytes, length_append, length_append, length_replicate, hframe]
  omega

theorem nextPayload_leak (x : UInt8) (rest : Bytes) :
    nextPayload (payloadFrame [] [x] ++ rest) = .ok ([x], rest) :=
  nextPayload_of_payload (readFrame_bytes (.plain [x] (Nat.lt_of_sub_eq_succ rfl)) rest)

theorem exists_mismatch (p : Bytes) : ∃ x : UInt8, ¬ [x] <+: p := by
  cases p with
  | nil => exact ⟨0, by simp⟩
  | cons y p =>
    by_cases hy : y = 0
    · exact ⟨1, by subst hy; simp⟩
    · exact ⟨0, by simp; exact fun h => hy h.symm⟩

theorem not_roundTrip_of_decoy (cfg : PadConfig) (hs : Drained s) {size : Int}
    (hsize : 65536 ≤ size) : ∃ t, Leads cfg [.writeDecoy size] s t ∧ ¬ RoundTrip t := by
  -- the length field says `k`; the reader is in sync again only if it skips that many bytes more
  have hk : size.toNat % 65536 < 65536 := Nat.mod_lt _ (by decide)
  generalize hn : size.toNat = n at hk
  generalize hdata : leakyBytes (replicate (n % 65536) 0) 0 n = data
  have hlen : data.length = n := by
    rw [← hdata]
    apply length_leakyBytes
    rw [length_replicate]
    omega
  generalize ht : ({ s with wire := s.wire ++ decoyFrame data } : Conn) = t
  have hstep : step cfg s (.writeDecoy size data) = some t := by
    rw [step, if_pos, ht]
    refine ⟨hs.isOpen, ?_⟩
    rw [DecoyDrawn, if_neg (by omega), hlen]
    omega
  have hnext : nextPayload t.wire = .ok ([0], replicate (n - (n % 65536 + 4)) 0) := by
    have hread := readFrame_decoyFrame data []
    rw [append_nil, append_nil, hlen] at hread
    rw [← ht, hs.nextPayload, nextPayload_of_skip hread, ← hdata, leakyBytes,
      drop_left' length_replicate, length_replicate, nextPayload_leak]
  have hbuf : t.readBuf = [] := by rw [← ht]; exact hs.readBuf
  have hleak : ¬ t.returned ++ [0] <+: t.written := by
    intro h
    have hle := h.length_le
    rw [← ht, length_append, length_singleton, hs.returned] at hle
    exact Nat.not_succ_le_self _ hle
  obtain ⟨u, hlead, hu⟩ := not_roundTrip_of_leak cfg hbuf hnext hleak
  exact ⟨u, (Leads.single hstep).trans hlead, hu⟩

theorem not_roundTrip_of_pad (hs : Drained s) (hburst : s.burstSent = true) (p : Bytes)
    (hpad : 65536 ≤ cfg.largestPad) : ∃ t, Leads cfg [.write p] s t ∧ ¬ RoundTrip t := by
  obtain ⟨x, hx⟩ := exists_mismatch p
  have hallows := cfg.allows_largestPad
  generalize cfg.largestPad = n at hpad hallows
  have hk : n % 65536 < 65536 := Nat.mod_lt _ (by decide)
  generalize hdata : leakyBytes (replicate (n % 65536) 0 ++ lengthField 0) x n = pad
  have hfield : (lengthField 0).length = 2 := rfl
  have hlen : pad.length = n := by
    rw [← hdata]
    apply length_leakyBytes
    rw [length_append, length_replicate, hfield]
    omega
  generalize ht :
    ({ s with wire := s.wire ++ payloadFrame pad p, written := s.written ++ p } : Conn) = t
  have hstep : step cfg s (.write pad p) = some t := by
    rw [step, if_pos ⟨hs.isOpen, hburst, by rwa [hlen]⟩, ht]
  -- behind the announced pad bytes the reader meets an empty payload and then the leaking frame
  obtain ⟨rest, hnext⟩ : ∃ rest, nextPayload t.wire = .ok ([x], rest) := by
    have hread := readFrame_payloadFrame pad p []
    have hdrop : pad.drop (n % 65536) = lengthField 0 ++ (payloadFrame [] [x] ++
        replicate (n - ((replicate (n % 65536) (0 : UInt8) ++ lengthField 0).length + 4))
          0) := by
      rw [← hdata, leakyBytes, append_assoc, drop_left' length_replicate]
    have hempty (bytes : Bytes) : readPayload (lengthField 0 ++ bytes) = .skip bytes :=
      readPayload_written [] bytes
    rw [append_nil, hlen, hdrop, append_assoc, hempty, append_assoc] at hread
    exact ⟨_, by rw [← ht, hs.nextPayload, nextPayload_of_skip hread, nextPayload_leak]⟩
  have hbuf : t.readBuf = [] := by rw [← ht]; exact hs.readBuf
  have hleak : ¬ t.returned ++ [x] <+: t.written := by
    rw [← ht, hs.returned, prefix_append_right_inj]
    exact hx
  obtain ⟨u, hlead, hu⟩ := not_roundTrip_of_leak cfg hbuf hnext hleak
  exact ⟨u, (Leads.single hstep).trans hlead, hu⟩

theorem not_roundTrip_of_payload (hs : Drained s)
    (hburst : s.burstSent = true) {p : Bytes} (hpad : cfg.largestPad < 65536)
    (hp : 65536 ≤ p.length) : ∃ t, Leads cfg [.write p] s t ∧ ¬ RoundTrip t := by
  generalize hzeros : replicate cfg.largestPad (0 : UInt8) = pad
  have hlen : pad.length = cfg.largestPad := by rw [← hzeros, length_replicate]
  generalize ht :
    ({ s with wire := s.wire ++ payloadFrame pad p, written := s.written ++ p } : Conn) = t
  have hstep : step cfg s (.write pad p) = some t := by
    rw [step, if_pos ⟨hs.isOpen, hburst, by rw [hlen]; exact cfg.allows_largestPad⟩, ht]
  have hbuf : t.readBuf = [] := by rw [← ht]; exact hs.readBuf
  have hret : t.returned = s.written := by rw [← ht]; exact hs.returned
  have hwritten : t.written = s.written ++ p := by rw [← ht]
  have hwire : nextPayload t.wire = nextPayload (payloadFrame pad p) := by
    rw [← ht]; exact hs.nextPayload _
  have hread := readFrame_payloadFrame pad p []
  rw [append_nil, append_nil, Nat.mod_eq_of_lt (by omega), drop_length, nil_append] at hread
  have hpayload := readPayload_written p []
  simp only [append_nil] at hpayload
  rw [hpayload] at hread
  have hk : p.length % 65536 < 65536 := Nat.mod_lt _ (by decide)
  -- after the announced bytes the reader looks for frames inside the rest of the payload
  have hstarved : ∃ u, Leads cfg [] t u ∧ ¬ RoundTrip u := by
    by_cases h0 : p.length % 65536 = 0
    · rw [if_pos h0] at hread
      apply not_roundTrip_of_starved cfg hbuf (hwire.trans (nextPayload_of_skip hread))
      · rw [hret, hwritten, length_append]
        omega
      · rw [hret, hwritten]
        exact Nat.le_of_eq length_append.symm
    · rw [if_neg h0] at hread
      have hnext := hwire.trans (nextPayload_of_payload hread)
      obtain ⟨u, hlead, hu⟩ := not_roundTrip_of_starved cfg
        (s := { t with
          wire := p.drop (p.length % 65536)
          readBuf := []
          returned := t.returned ++ p.take (p.length % 65536) }) rfl rfl
        (by rw [hret, hwritten, length_append, length_append, length_take]; omega)
        (by
          rw [hret, hwritten, length_append, length_append, length_take,
            length_drop]
          omega)
      exact ⟨u, (Leads.read hbuf hnext).trans hlead, hu⟩
  obtain ⟨u, hlead, hu⟩ := hstarved
  exact ⟨u, (Leads.single hstep).trans hlead, hu⟩

theorem exists_not_roundTrip {calls : List Call} {c : Call} (hfits : ∀ c ∈ calls, c.Fits cfg)
    (hc : ¬ c.Fits cfg) : ∃ s, Leads cfg (calls ++ [c]) {} s ∧ ¬ RoundTrip s := by
  obtain ⟨s, hlead, hs⟩ := exists_drained hfits
  cases c with
  | write p =>
    obtain ⟨t, hburstLead, ht, hburst⟩ := hs.burst cfg
    have hready := hlead.trans hburstLead
    rw [append_nil] at hready
    obtain ⟨u, hu, hfail⟩ : ∃ u, Leads cfg [.write p] t u ∧ ¬ RoundTrip u := by
      by_cases hpad : cfg.largestPad < 65536
      · have hp : ¬ p.length < 65536 := fun hp => hc ⟨hp, hpad⟩
        exact not_roundTrip_of_payload ht hburst hpad (by omega)
      · exact not_roundTrip_of_pad ht hburst p (by omega)
    exact ⟨u, hready.trans hu, hfail⟩
  | writeDecoy size =>
    have hsize : ¬ size < 65536 := hc
    obtain ⟨u, hu, hfail⟩ := not_roundTrip_of_decoy cfg hs (Int.not_lt.1 hsize)
    exact ⟨u, hlead.trans hu, hfail⟩
  | writeBurstEnd => exact absurd trivial hc

/-- **Round trip** in every run, exactly if all lengths fit the 16-bit field. -/
theorem roundTrip_iff (cfg : PadConfig) (calls : List Call) :
    (∀ evs s, callsOf evs <+: calls → run (step cfg) {} evs = some s → RoundTrip s) ↔
      ∀ c ∈ calls, c.Fits cfg := by
  constructor
  · intro h
    -- the calls fit up to any point, by induction on that point
    have hall : ∀ pre : List Call, pre <+: calls → ∀ c ∈ pre, c.Fits cfg := by
      intro pre
      induction pre using reverseRecOn with
      | nil => exact fun _ c hc => by cases hc
      | append_singleton pre c ih =>
        intro hpre
        have hprev := ih ((prefix_append pre [c]).trans hpre)
        intro d hd
        rcases mem_append.1 hd with hd | hd
        · exact hprev d hd
        · rw [mem_singleton] at hd
          subst hd
          by_contra hmisfit
          obtain ⟨s, ⟨evs, hcalls, hrun⟩, hfail⟩ := exists_not_roundTrip hprev hmisfit
          exact hfail (h evs s (by rwa [hcalls]) hrun)
    exact hall calls (prefix_refl calls)
  · intro hfits evs s hpre hrun
    exact roundTrip_of_fits (fun c hc => hfits c (hpre.subset hc)) hrun

/-! ## A write of the relay that does not fit -/

def longWriteRun : List Event :=
  [.burst (replicate 3 (replicate 64 0)), .write [] (replicate 65536 0xff)]

theorem nextPayload_longWrite :
    nextPayload (payloadFrame [] (replicate 65536 0xff)) =
      .error (.unknownFlags 0xff, replicate 65535 0xff) := by
  have hread := readFrame_payloadFrame [] (replicate 65536 0xff) []
  rw [drop_nil, nil_append, readPayload_written,
    if_pos (by rw [length_replicate]), append_nil, append_nil] at hread
  rw [nextPayload_of_skip hread]
  have hflags : readFrame (replicate (65535 + 1) 0xff) =
      .fail (.unknownFlags 0xff) (replicate 65535 0xff) := by
    rw [replicate_succ, readFrame, if_neg (by decide), if_neg (by decide),
      if_neg (by decide), if_neg (by decide)]
  exact nextPayload_of_fail hflags

/-- **A payload that `relay` can pass is lost**, and none of it is returned. -/
theorem longWriteRun_not_roundTrip :
    65536 ≤ relayBufSize ∧ ∃ s, run (step ⟨0, 256⟩) {} longWriteRun = some s ∧
      s.written = replicate 65536 0xff ∧ s.returned = [] ∧ ¬ RoundTrip s := by
  refine ⟨by decide, ?_⟩
  have hdrawn : BurstDrawn (replicate 3 (replicate 64 0)) := by decide
  -- nothing but decoys is in the pipe after the burst
  have hburst : Drained
      { burstSent := true, wire := paddingBurst (replicate 3 (replicate 64 0)) } :=
    ⟨rfl, rfl, rfl, by simpa only [and_comm, eq_comm] using exists_burst hdrawn⟩
  refine ⟨{
    burstSent := true
    wire := paddingBurst (replicate 3 (replicate 64 0)) ++
      payloadFrame [] (replicate 65536 0xff)
    written := replicate 65536 0xff }, ?_, rfl, rfl, ?_⟩
  · rw [longWriteRun, run_cons, step, if_pos ⟨rfl, rfl, hdrawn⟩, Option.bind_some, run_cons, step,
      if_pos ⟨rfl, rfl, by decide⟩]
    rfl
  · intro h
    have hall := h.complete ⟨rfl, fun p rest hp => ?_⟩
    · cases hall
    · rw [hburst.nextPayload, nextPayload_longWrite] at hp
      cases hp

end NatProxy.WebRTC.PaddedStream
