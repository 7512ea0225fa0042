import Mathlib.Tactic.SplitIfs
import NatProxy.Lib.Transition

/-!
# The throttled relay

Model of `throttledConn` (`golib/webrtc/throttle.go`) and of `relay` (`golib/webrtc/socks5.go`) as
`handleStream` uses them: `relay` runs two loops of `io.CopyBuffer`, one for each direction, between
a stream and a connection that is throttled. Writes to the connection wait for the limiter of the
one direction, and reads from it for that of the other. When both loops have ended, `relay` closes
both sides.

`rate.Limiter.WaitN` fails for more than the burst, which is the number of bytes for each second,
and a chunk of `relay` may have 128 KB. A chunk that is larger than the limit ends its direction:
its bytes (of a write) or those after it (of a read) are lost (`chunkAboveLimit`), and no others are
(`throttled_relay`).

The inner connections do not fail here, and time is not modelled.
-/

namespace NatProxy.WebRTC.Throttle

open Lib List

/-! ## Limiters -/

def relayBufSize : Nat := 128 * 1024

def newLimiter (bytesPerSec : Int) : Option Nat :=
  if 0 < bytesPerSec then some bytesPerSec.toNat else none

/-- Whether `WaitN` succeeds; without a limiter it is not called. -/
def waitN (lim : Option Nat) (cancelled : Bool) (n : Nat) : Bool :=
  match lim with
  | none => true
  | some burst => decide (n ≤ burst) && !cancelled

theorem waitN_iff {lim : Option Nat} {n : Nat} :
    waitN lim false n = true ↔ ∀ burst ∈ lim, n ≤ burst := by
  cases lim with
  | none | some burst => simp [waitN]

theorem waitN_zero (lim : Option Nat) : waitN lim false 0 = true :=
  waitN_iff.mpr fun _ _ => Nat.zero_le _

/-! ## One direction -/

/-- What the reads of one side return: some chunks, and then a last one, which may be empty,
together with the end. -/
structure Source where
  chunks : List (List UInt8)
  final : List UInt8
  size : ∀ c ∈ final :: chunks, c.length ≤ relayBufSize

def Source.bytes (src : Source) : List UInt8 := src.chunks.flatten ++ src.final

/-- Where the loop of `io.CopyBuffer` is; `stop` says that the read has returned an error as well,
if only the end. -/
inductive Loop where
  | reading
  | writing (data : List UInt8) (stop : Bool)
  | ended
deriving DecidableEq, Repr

/-- Both ends of a direction may have a limiter. `failed` records that a wait has failed. -/
structure Direction where
  readLim : Option Nat
  writeLim : Option Nat
  chunks : List (List UInt8)
  final : List UInt8
  loop : Loop := .reading
  delivered : List UInt8 := []
  failed : Bool := false
deriving DecidableEq, Repr

/-- `throttledConn.Read` of the chunk `data`, and the loop after it. The chunk is written even if
the wait fails. -/
def Direction.read (d : Direction) (cancelled : Bool) (data : List UInt8)
    (rest : List (List UInt8)) (eof : Bool) : Direction :=
  let waited := data.isEmpty || waitN d.readLim cancelled data.length
  let stop := eof || !waited
  { d with
    chunks := rest
    failed := d.failed || !waited
    loop :=
      if data ≠ [] then .writing data stop
      else if stop = true then .ended
      else .reading }

/-- `throttledConn.Write`, and the loop after it. -/
def Direction.write (d : Direction) (cancelled : Bool) (data : List UInt8) (stop : Bool) :
    Direction :=
  if waitN d.writeLim cancelled data.length = true then
    { d with delivered := d.delivered ++ data, loop := if stop = true then .ended else .reading }
  else { d with failed := true, loop := .ended }

def Direction.step (d : Direction) (cancelled : Bool) : Option Direction :=
  match d.loop, d.chunks with
  | .reading, c :: rest => some (d.read cancelled c rest false)
  | .reading, [] => some (d.read cancelled d.final [] true)
  | .writing data stop, _ => some (d.write cancelled data stop)
  | .ended, _ => none

/-! ## The relay -/

/-- From the stream to the connection, and back. -/
inductive Side where
  | up
  | down
deriving DecidableEq, Repr

/-- `closed` says that the connection was closed, which cancels the waits. -/
structure State where
  dir : Side → Direction
  closed : Bool := false

inductive Action where
  | copy (side : Side)
  | close
deriving DecidableEq, Repr

def State.set (s : State) (side : Side) (d : Direction) : State :=
  { s with dir := Function.update s.dir side d }

def State.Ended (s : State) : Prop := ∀ side, (s.dir side).loop = .ended

instance (s : State) : Decidable s.Ended :=
  decidable_of_iff ((s.dir .up).loop = .ended ∧ (s.dir .down).loop = .ended)
    ⟨fun h side => by cases side; exacts [h.1, h.2], fun h => ⟨h .up, h .down⟩⟩

def step (s : State) : Action → Option State
  | .copy side => ((s.dir side).step s.closed).map (s.set side)
  | .close => if s.Ended ∧ s.closed = false then some { s with closed := true } else none

/-- `newThrottledConn` and `relay`: the limit for up is that of the writes. -/
def start (bytesPerSecUp bytesPerSecDown : Int) (upstream downstream : Source) : State where
  dir
    | .up =>
      { readLim := none, writeLim := newLimiter bytesPerSecUp
        chunks := upstream.chunks, final := upstream.final }
    | .down =>
      { readLim := newLimiter bytesPerSecDown, writeLim := none
        chunks := downstream.chunks, final := downstream.final }

/-- No wait has failed, and what was read is delivered when the relay ends. -/
def Delivers (bytesPerSecUp bytesPerSecDown : Int) (upstream downstream : Source) : Prop :=
  ∀ s, Reaches step anyStep (start bytesPerSecUp bytesPerSecDown upstream downstream) s →
    (∀ side, (s.dir side).failed = false) ∧
    (s.Ended → (s.dir .up).delivered = upstream.bytes ∧
      (s.dir .down).delivered = downstream.bytes)

/-- Every chunk is within the limit, if there is one. -/
def Fits (bytesPerSec : Int) (src : Source) : Prop :=
  0 < bytesPerSec → ∀ c ∈ src.final :: src.chunks, (c.length : Int) ≤ bytesPerSec

/-! ## Chunks that fit -/

/-- Both waits for a chunk succeed. -/
def Direction.accepts (d : Direction) (c : List UInt8) : Prop :=
  waitN d.readLim false c.length = true ∧ waitN d.writeLim false c.length = true

theorem Direction.accepts_nil (d : Direction) : d.accepts [] :=
  ⟨waitN_zero d.readLim, waitN_zero d.writeLim⟩

/-- What is still to be delivered. -/
def Direction.rest (d : Direction) : List UInt8 :=
  match d.loop with
  | .reading => d.chunks.flatten ++ d.final
  | .writing data stop => data ++ if stop = true then [] else d.chunks.flatten ++ d.final
  | .ended => []

/-- No wait has failed, no byte is lost, and what is to come fits. -/
structure Intact (total : List UInt8) (d : Direction) : Prop where
  failed : d.failed = false
  bytes : d.delivered ++ d.rest = total
  fits : ∀ c ∈ d.final :: d.chunks, d.accepts c
  writing : ∀ data stop, d.loop = .writing data stop → d.accepts data

section

variable {total : List UInt8} {d d' : Direction}

theorem Intact.read (h : Intact total d) {data : List UInt8} {rest : List (List UInt8)}
    {eof : Bool} (hdata : d.accepts data) (hfits : ∀ c ∈ d.final :: rest, d.accepts c)
    (hrest : d.rest = data ++ if eof = true then [] else rest.flatten ++ d.final) :
    Intact total (d.read false data rest eof) := by
  have hbytes := h.bytes
  rw [hrest] at hbytes
  have hwaited : (data.isEmpty || waitN d.readLim false data.length) = true := by
    rw [hdata.1, Bool.or_true]
  constructor
  case failed => simp [Direction.read, hwaited, h.failed]
  case fits => exact hfits
  case bytes =>
    grind [Direction.read, Direction.rest]
  case writing =>
    intro data' stop' hloop
    simp only [Direction.read] at hloop
    split_ifs at hloop
    cases hloop
    exact hdata

theorem Intact.write (h : Intact total d) {data : List UInt8} {stop : Bool}
    (hloop : d.loop = .writing data stop) : Intact total (d.write false data stop) := by
  have hwait := (h.writing data stop hloop).2
  have hbytes := h.bytes
  simp only [Direction.rest, hloop] at hbytes
  rw [Direction.write, if_pos hwait]
  constructor
  case failed => exact h.failed
  case fits => exact h.fits
  case bytes =>
    rw [← hbytes]
    cases stop <;> simp [Direction.rest]
  case writing =>
    intro data' stop' hnext
    cases stop <;> cases hnext

theorem Intact.step (h : Intact total d) (hstep : d.step false = some d') : Intact total d' := by
  cases hloop : d.loop with
  | reading =>
    cases hchunks : d.chunks with
    | nil =>
      simp only [Direction.step, hloop, hchunks, Option.some.injEq] at hstep
      subst hstep
      apply h.read
      · exact h.fits d.final mem_cons_self
      · intro c hc
        exact h.fits c (mem_cons.mpr (.inl (mem_singleton.mp hc)))
      · simp [Direction.rest, hloop, hchunks]
    | cons c rest =>
      simp only [Direction.step, hloop, hchunks, Option.some.injEq] at hstep
      subst hstep
      have hfits := h.fits
      rw [hchunks] at hfits
      apply h.read
      · exact hfits c (by simp)
      · intro c' hc'
        apply hfits
        rcases mem_cons.mp hc' with rfl | hc'
        · exact mem_cons_self
        · exact mem_cons_of_mem _ (mem_cons_of_mem _ hc')
      · simp [Direction.rest, hloop, hchunks]
  | writing data stop =>
    simp only [Direction.step, hloop, Option.some.injEq] at hstep
    subst hstep
    exact h.write hloop
  | ended =>
    simp only [Direction.step, hloop] at hstep
    cases hstep

theorem Intact.delivered (h : Intact total d) (hended : d.loop = .ended) : d.delivered = total := by
  have hbytes := h.bytes
  simp only [Direction.rest, hended, append_nil] at hbytes
  exact hbytes

end

theorem fits_iff {bytesPerSec : Int} {src : Source} :
    Fits bytesPerSec src ↔
      ∀ c ∈ src.final :: src.chunks, waitN (newLimiter bytesPerSec) false c.length = true := by
  simp only [Fits, newLimiter]
  split_ifs with hpos
  · simp only [hpos, true_imp_iff]
    apply forall_congr'
    intro c
    apply imp_congr_right
    intro _
    rw [waitN_iff]
    simp only [Option.mem_some_iff, forall_eq']
    omega
  · simp only [hpos, false_imp_iff, true_iff]
    intro c _
    rfl

/-! ## Every chunk fits -/

section

variable {up down : Int} {upstream downstream : Source}

/-- Both directions are intact, and the connection is closed only after both. -/
structure Fine (upstream downstream : Source) (s : State) : Prop where
  up : Intact upstream.bytes (s.dir .up)
  down : Intact downstream.bytes (s.dir .down)
  closed : s.closed = true → s.Ended

theorem fine_start (hup : Fits up upstream) (hdown : Fits down downstream) :
    Fine upstream downstream (start up down upstream downstream) where
  up :=
    { failed := rfl
      bytes := rfl
      fits := fun c hc => ⟨rfl, fits_iff.mp hup c hc⟩
      writing := fun _ _ h => nomatch h }
  down :=
    { failed := rfl
      bytes := rfl
      fits := fun c hc => ⟨fits_iff.mp hdown c hc, rfl⟩
      writing := fun _ _ h => nomatch h }
  closed := fun h => nomatch h

theorem fine_step {s t : State} (a : Action) (h : Fine upstream downstream s)
    (hstep : step s a = some t) : Fine upstream downstream t := by
  cases a with
  | close =>
    obtain ⟨hguard, rfl⟩ := of_guarded hstep
    exact ⟨h.up, h.down, fun _ => hguard.1⟩
  | copy side =>
    obtain ⟨d, hd, rfl⟩ := Option.map_eq_some_iff.mp hstep
    -- a direction that goes on has not ended, so nothing is cancelled
    have hopen : s.closed = false := by
      rw [← Bool.not_eq_true]
      intro hclosed
      simp [Direction.step, h.closed hclosed side] at hd
    rw [hopen] at hd
    have hclosed : (s.set side d).closed = true → (s.set side d).Ended := by
      intro hc
      have hc' : s.closed = true := hc
      rw [hopen] at hc'
      cases hc'
    cases side with
    | up => exact ⟨h.up.step hd, h.down, hclosed⟩
    | down => exact ⟨h.up, h.down.step hd, hclosed⟩

theorem delivers_of_fits (hup : Fits up upstream) (hdown : Fits down downstream) :
    Delivers up down upstream downstream := by
  intro s hreach
  have hfine : Fine upstream downstream s :=
    hreach.invariant (Fine upstream downstream) (fine_start hup hdown)
      fun _ a _ hs _ hstep => fine_step a hs hstep
  constructor
  · intro side
    cases side with
    | up => exact hfine.up.failed
    | down => exact hfine.down.failed
  · intro hended
    exact ⟨hfine.up.delivered (hended .up), hfine.down.delivered (hended .down)⟩

end

/-! ## A chunk that does not fit -/

section

variable {s : State} {side : Side}

theorem reaches_copy (hopen : s.closed = false) {d : Direction}
    (h : (s.dir side).step false = some d) : Reaches step anyStep s (s.set side d) := by
  apply Relation.ReflTransGen.single
  refine ⟨.copy side, trivial, ?_⟩
  simp only [step, hopen, h, Option.map_some]

theorem set_dir_self (s : State) (side : Side) (d : Direction) : (s.set side d).dir side = d := by
  simp [State.set]

theorem exists_failed_of_chunk (hopen : s.closed = false) {data : List UInt8}
    {rest : List (List UInt8)} {eof : Bool}
    (hread : (s.dir side).step false = some ((s.dir side).read false data rest eof))
    (hbad : ¬ (s.dir side).accepts data) :
    ∃ t, Reaches step anyStep s t ∧ (t.dir side).failed = true := by
  have hne : data ≠ [] := by
    rintro rfl
    exact hbad (s.dir side).accepts_nil
  have hfirst := reaches_copy hopen hread
  cases hwait : waitN (s.dir side).readLim false data.length with
  | false =>
    refine ⟨_, hfirst, ?_⟩
    rw [set_dir_self]
    simp [Direction.read, hwait, hne]
  | true =>
    -- the read is fine, so it is the write that fails
    have hwrite : waitN (s.dir side).writeLim false data.length = false := by
      rw [← Bool.not_eq_true]
      exact fun hw => hbad ⟨hwait, hw⟩
    have hnext : ((s.set side ((s.dir side).read false data rest eof)).dir side).step false =
        some (((s.dir side).read false data rest eof).write false data eof) := by
      rw [set_dir_self]
      simp [Direction.step, Direction.read, hne, hwait]
    refine ⟨_, hfirst.trans (reaches_copy (s := s.set side _) hopen hnext), ?_⟩
    rw [set_dir_self]
    simp [Direction.write, Direction.read, hwrite]

theorem exists_next_of_chunk (hopen : s.closed = false) (hloop : (s.dir side).loop = .reading)
    {c : List UInt8} {rest : List (List UInt8)} (hchunks : (s.dir side).chunks = c :: rest)
    (hgood : (s.dir side).accepts c) :
    ∃ t, Reaches step anyStep s t ∧ t.closed = false ∧ (t.dir side).loop = .reading ∧
      (t.dir side).chunks = rest ∧ (t.dir side).final = (s.dir side).final ∧
      (t.dir side).readLim = (s.dir side).readLim ∧
      (t.dir side).writeLim = (s.dir side).writeLim := by
  have hread : (s.dir side).step false = some ((s.dir side).read false c rest false) := by
    simp only [Direction.step, hloop, hchunks]
  have hfirst := reaches_copy hopen hread
  by_cases hne : c = []
  · refine ⟨_, hfirst, hopen, ?_⟩
    rw [set_dir_self]
    simp [Direction.read, hne]
  · have hnext : ((s.set side ((s.dir side).read false c rest false)).dir side).step false =
        some (((s.dir side).read false c rest false).write false c false) := by
      rw [set_dir_self]
      simp [Direction.step, Direction.read, hne, hgood.1]
    refine ⟨_, hfirst.trans (reaches_copy (s := s.set side _) hopen hnext), hopen, ?_⟩
    rw [set_dir_self]
    simp [Direction.write, Direction.read, hgood.2]

theorem exists_failed (chunks : List (List UInt8)) :
    ∀ {s : State}, s.closed = false → (s.dir side).loop = .reading →
      (s.dir side).chunks = chunks →
      (∃ c ∈ (s.dir side).final :: chunks, ¬ (s.dir side).accepts c) →
      ∃ t, Reaches step anyStep s t ∧ (t.dir side).failed = true := by
  induction chunks with
  | nil =>
    intro s hopen hloop hchunks hbad
    obtain ⟨c, hc, hbad⟩ := hbad
    rw [mem_singleton] at hc
    subst hc
    apply exists_failed_of_chunk hopen _ hbad
    · exact []
    · exact true
    · simp only [Direction.step, hloop, hchunks]
  | cons c rest ih =>
    intro s hopen hloop hchunks hbad
    by_cases hgood : (s.dir side).accepts c
    · obtain ⟨t, hreach, htopen, htloop, htchunks, htfinal, htread, htwrite⟩ :=
        exists_next_of_chunk hopen hloop hchunks hgood
      have htbad : ∃ c ∈ (t.dir side).final :: rest, ¬ (t.dir side).accepts c := by
        obtain ⟨c', hc', hbad⟩ := hbad
        refine ⟨c', ?_, ?_⟩
        · grind
        · rw [Direction.accepts, htread, htwrite]
          exact hbad
      obtain ⟨u, hu, hfailed⟩ := ih htopen htloop htchunks htbad
      exact ⟨u, hreach.trans hu, hfailed⟩
    · apply exists_failed_of_chunk hopen _ hgood
      · exact rest
      · exact false
      · simp only [Direction.step, hloop, hchunks]

end

section

variable {up down : Int} {upstream downstream : Source}

theorem accepts_of_delivers (h : Delivers up down upstream downstream) (side : Side) :
    ∀ c ∈ ((start up down upstream downstream).dir side).final ::
        ((start up down upstream downstream).dir side).chunks,
      ((start up down upstream downstream).dir side).accepts c := by
  intro c hc
  by_contra hbad
  have hloop : ((start up down upstream downstream).dir side).loop = .reading := by
    cases side <;> rfl
  obtain ⟨t, hreach, hfailed⟩ := exists_failed _ rfl hloop rfl ⟨c, hc, hbad⟩
  rw [(h t hreach).1 side] at hfailed
  cases hfailed

theorem delivers_iff :
    Delivers up down upstream downstream ↔ Fits up upstream ∧ Fits down downstream := by
  constructor
  · intro h
    rw [fits_iff, fits_iff]
    exact ⟨fun c hc => (accepts_of_delivers h .up c hc).2,
      fun c hc => (accepts_of_delivers h .down c hc).1⟩
  · rintro ⟨hup, hdown⟩
    exact delivers_of_fits hup hdown

end

/-! ## The relay ends -/

/-- How many steps a direction can still make. -/
def Direction.stepsLeft (d : Direction) : Nat :=
  match d.loop with
  | .reading => 2 * d.chunks.length + 2
  | .writing _ stop => if stop = true then 1 else 2 * d.chunks.length + 3
  | .ended => 0

def State.stepsLeft (s : State) : Nat :=
  (s.dir .up).stepsLeft + (s.dir .down).stepsLeft + if s.closed = true then 0 else 1

theorem Direction.stepsLeft_step {d d' : Direction} {cancelled : Bool}
    (h : d.step cancelled = some d') : d'.stepsLeft < d.stepsLeft := by
  cases hloop : d.loop with
  | reading =>
    cases hchunks : d.chunks with
    | nil =>
      simp only [Direction.step, hloop, hchunks, Option.some.injEq] at h
      subst h
      simp only [Direction.stepsLeft, hloop, hchunks, Direction.read, Bool.true_or, if_true,
        length_nil]
      split_ifs <;> simp
    | cons c rest =>
      simp only [Direction.step, hloop, hchunks, Option.some.injEq] at h
      subst h
      simp only [Direction.stepsLeft, hloop, hchunks, Direction.read, length_cons]
      split_ifs with hne hstop <;> dsimp only
      · split_ifs <;> omega
      · omega
      · omega
  | writing data stop =>
    simp only [Direction.step, hloop, Option.some.injEq] at h
    subst h
    simp only [Direction.stepsLeft, hloop, Direction.write]
    cases stop <;> split_ifs <;> simp
  | ended =>
    simp only [Direction.step, hloop] at h
    cases h

theorem stepsLeft_step {s t : State} {a : Action} (h : step s a = some t) :
    t.stepsLeft < s.stepsLeft := by
  cases a with
  | close =>
    obtain ⟨⟨-, hopen⟩, rfl⟩ := of_guarded h
    simp [State.stepsLeft, hopen]
  | copy side =>
    obtain ⟨d, hd, rfl⟩ := Option.map_eq_some_iff.mp h
    have hless := Direction.stepsLeft_step hd
    cases side with
    | up =>
      have hother : (s.set .up d).dir .down = s.dir .down := rfl
      have hclosed : (s.set .up d).closed = s.closed := rfl
      simp only [State.stepsLeft, set_dir_self, hother, hclosed]
      omega
    | down =>
      have hother : (s.set .down d).dir .up = s.dir .up := rfl
      have hclosed : (s.set .down d).closed = s.closed := rfl
      simp only [State.stepsLeft, set_dir_self, hother, hclosed]
      omega

theorem length_le_stepsLeft {as : List Action} :
    ∀ {s t : State}, run step s as = some t → as.length ≤ s.stepsLeft := by
  induction as with
  | nil => exact fun _ => Nat.zero_le _
  | cons a as ih =>
    intro s t h
    obtain ⟨u, hu, hrest⟩ := Option.bind_eq_some_iff.mp h
    have hless := stepsLeft_step hu
    have hle := ih hrest
    rw [length_cons]
    omega

theorem exists_step {s : State} (hopen : s.closed = false) : ∃ a, (step s a).isSome = true := by
  by_cases hended : s.Ended
  · exact ⟨.close, by simp [step, hended, hopen]⟩
  · obtain ⟨side, hside⟩ := Classical.not_forall.mp hended
    refine ⟨.copy side, ?_⟩
    simp only [step, Option.isSome_map]
    cases hloop : (s.dir side).loop with
    | reading => cases hchunks : (s.dir side).chunks <;> simp [Direction.step, hloop, hchunks]
    | writing data stop => simp [Direction.step, hloop]
    | ended => exact absurd hloop hside

/-- Every run of a relay is finite, can go on until it is closed, and delivers what is read without
a failed wait exactly if no chunk is above the limit. -/
theorem throttled_relay (bytesPerSecUp bytesPerSecDown : Int) (upstream downstream : Source) :
    (∀ as s, run step (start bytesPerSecUp bytesPerSecDown upstream downstream) as = some s →
      as.length ≤ 2 * upstream.chunks.length + 2 * downstream.chunks.length + 5 ∧
      (s.closed = false → ∃ a, (step s a).isSome = true)) ∧
    (Delivers bytesPerSecUp bytesPerSecDown upstream downstream ↔
      Fits bytesPerSecUp upstream ∧ Fits bytesPerSecDown downstream) := by
  refine ⟨fun as s h => ⟨?_, exists_step⟩, delivers_iff⟩
  have hle := length_le_stepsLeft h
  simp only [State.stepsLeft, Direction.stepsLeft, start, Bool.false_eq_true, if_false] at hle
  omega

def packet : List UInt8 := replicate 1460 0

def packetAndByte : Source where
  chunks := [packet, [1]]
  final := []
  size := by
    have hpacket : packet.length = 1460 := length_replicate
    simp [hpacket, relayBufSize]

theorem chunkAboveLimit :
    (run step (start 1000 1000 packetAndByte packetAndByte)
        [.copy .up, .copy .up, .copy .down, .copy .down, .close]).map
      (fun s => ((s.dir .up).failed, (s.dir .up).delivered, (s.dir .down).failed,
        (s.dir .down).delivered, s.closed)) =
    some (true, [], true, packet, true) := by
  decide +kernel

end NatProxy.WebRTC.Throttle
