import NatProxy.WebRTC.PaddedStream

/-!
# The chain of relays between the application and the target

Model of one proxied TCP connection: the application's connection, the client's hop
(`Tunnel.handleTCP` of `golib/tunnel/tun.go` or the SOCKS5 `relay`), the smux stream, the server's
hop (`relay`, called by `Server.handleStream`) and the target's connection. Each hop runs one copy
loop per direction. A loop ends when its source reports end-of-file; it then calls `CloseWrite` on
its destination if the dynamic type of that connection has the method (`ConnType.hasCloseWrite`),
and it waits for the other loop. Both connections of a hop are closed once both loops are over.

`timer` is the inactivity timer of `activityConn`. Stopping and failures of a connection are left
out.

Neither the smux stream nor its wrappers have `CloseWrite`. So the loop that writes to the stream
ends without a trace on the other machine, and the loop that reads from it never ends. Data comes
through in order (`conserved_of_reachable`, `exists_delivered`), end-of-file in neither direction
(`unended_of_reachable`).
-/

namespace NatProxy.WebRTC.RelayChain

open Lib Function List

/-! ## The connections and their types -/

/-- `up` is from the application to the target. -/
inductive Dir where
  | up
  | down
deriving DecidableEq, Repr

inductive Link where
  | app
  | stream
  | target
deriving DecidableEq, Repr

inductive Hop where
  | client
  | server
deriving DecidableEq, Repr

def Dir.origin : Dir → Link
  | .up => .app
  | .down => .target

def Dir.goal : Dir → Link
  | .up => .target
  | .down => .app

def Hop.source : Hop → Dir → Link
  | .client, .up => .app
  | .client, .down => .stream
  | .server, .up => .stream
  | .server, .down => .target

def Hop.dest : Hop → Dir → Link
  | .client, .up => .stream
  | .client, .down => .app
  | .server, .up => .target
  | .server, .down => .stream

/-- The dynamic types behind `io.ReadWriteCloser`. -/
inductive ConnType where
  | tcpConn
  | smuxStream
  | paddedStream (inner : ConnType)
  | countingRWC (inner : ConnType)
  | throttledConn (inner : ConnType)
deriving DecidableEq, Repr

/-- The type assertion `(interface{ CloseWrite() error })`, which the wrappers fail. -/
def ConnType.hasCloseWrite : ConnType → Bool
  | .tcpConn => true
  | .smuxStream | .paddedStream _ | .countingRWC _ | .throttledConn _ => false

/-- The settings that choose the wrappers, and whether the hop is `handleTCP` or `relay`. -/
structure Config where
  padding : Bool
  rateLimited : Bool
  viaTun : Bool
deriving DecidableEq, Repr

def Config.connType (cfg : Config) : Hop → Link → ConnType
  | .server, .stream =>
    .countingRWC (.countingRWC (if cfg.padding then .paddedStream .smuxStream else .smuxStream))
  | .client, .stream => if cfg.padding then .paddedStream .smuxStream else .smuxStream
  | _, .target => if cfg.rateLimited then .throttledConn .tcpConn else .tcpConn
  | _, .app => .tcpConn

/-- At its end the loop half-closes its destination; in `handleTCP` only the loop towards the stream
does. -/
def Config.halfCloses (cfg : Config) (h : Hop) (d : Dir) : Bool :=
  match h, d, cfg.viaTun with
  | .client, .down, true => false
  | _, _, _ => (cfg.connType h (h.dest d)).hasCloseWrite

/-- `relay` wraps its connections with an inactivity timer, `handleTCP` does not. -/
def Config.hasTimer (cfg : Config) : Hop → Bool
  | .server => true
  | .client => !cfg.viaTun

/-! ## States and steps -/

/-- The bytes on the way in one direction, and whether the writer has ended it. -/
structure Pipe where
  buf : Bytes := []
  eof : Bool := false
deriving DecidableEq, Repr

/-- `sent`, `got` and `sawEOF` belong to the two ends of a direction. -/
structure Chain where
  pipe : Link → Dir → Pipe := fun _ _ => {}
  done : Hop → Dir → Bool := fun _ _ => false
  closed : Hop → Link → Bool := fun _ _ => false
  returned : Hop → Bool := fun _ => false
  sent : Dir → Bytes := fun _ => []
  got : Dir → Bytes := fun _ => []
  sawEOF : Dir → Bool := fun _ => false

def Chain.setPipe (s : Chain) (l : Link) (d : Dir) (p : Pipe) : Chain :=
  { s with pipe := update s.pipe l (update (s.pipe l) d p) }

def Chain.setDone (s : Chain) (h : Hop) (d : Dir) : Chain :=
  { s with done := update s.done h (update (s.done h) d true) }

def Chain.shutWrite (s : Chain) (l : Link) (d : Dir) : Chain :=
  s.setPipe l d { s.pipe l d with eof := true }

/-- `Close` by a hop, on the connection that its loop in direction `d` writes to. -/
def Chain.closeDest (s : Chain) (h : Hop) (d : Dir) : Chain :=
  { s.shutWrite (h.dest d) d with
    closed := update s.closed h (update (s.closed h) (h.dest d) true) }

/-- The source is closed, or at end-of-file, or the next write fails. -/
def Chain.CopyEnds (s : Chain) (h : Hop) (d : Dir) : Prop :=
  s.closed h (h.source d) = true ∨
    ((s.pipe (h.source d) d).buf = [] ∧ (s.pipe (h.source d) d).eof = true) ∨
    (s.closed h (h.dest d) = true ∧ (s.pipe (h.source d) d).buf ≠ [])

instance (s : Chain) (h : Hop) (d : Dir) : Decidable (s.CopyEnds h d) :=
  inferInstanceAs (Decidable (_ ∨ _))

/-- The first four are steps of the two ends, the others of the hops. -/
inductive Action where
  | send (d : Dir) (bs : Bytes)
  | closeSend (d : Dir)
  | recv (d : Dir) (n : Nat)
  | recvEOF (d : Dir)
  | copy (h : Hop) (d : Dir) (n : Nat)
  | finish (h : Hop) (d : Dir)
  | ret (h : Hop)
  | timer (h : Hop) (d : Dir)
deriving DecidableEq, Repr

def step (cfg : Config) (s : Chain) : Action → Option Chain
  | .send d bs =>
    let p := s.pipe d.origin d
    if p.eof = false then
      some { s.setPipe d.origin d { p with buf := p.buf ++ bs } with
        sent := update s.sent d (s.sent d ++ bs) }
    else none
  | .closeSend d => some (s.shutWrite d.origin d)
  | .recv d n =>
    let p := s.pipe d.goal d
    if p.buf.take n ≠ [] then
      some { s.setPipe d.goal d { p with buf := p.buf.drop n } with
        got := update s.got d (s.got d ++ p.buf.take n) }
    else none
  | .recvEOF d =>
    let p := s.pipe d.goal d
    if p.buf = [] ∧ p.eof = true then
      some { s with sawEOF := update s.sawEOF d true }
    else none
  | .copy h d n =>
    let src := s.pipe (h.source d) d
    let dst := s.pipe (h.dest d) d
    if s.done h d = false ∧ s.closed h (h.source d) = false ∧ s.closed h (h.dest d) = false ∧
        n ≤ relayBufSize ∧ src.buf.take n ≠ [] then
      some ((s.setPipe (h.source d) d { src with buf := src.buf.drop n }).setPipe (h.dest d) d
        { dst with buf := dst.buf ++ src.buf.take n })
    else none
  | .finish h d =>
    if s.done h d = false ∧ s.CopyEnds h d then
      -- `CloseWrite` on a connection that the hop has closed does nothing
      if cfg.halfCloses h d = true ∧ s.closed h (h.dest d) = false then
        some ((s.setDone h d).shutWrite (h.dest d) d)
      else some (s.setDone h d)
    else none
  | .ret h =>
    -- the deferred `Close` calls, once both loops are over
    if s.returned h = false ∧ s.done h .up = true ∧ s.done h .down = true then
      some { (s.closeDest h .up).closeDest h .down with
        returned := update s.returned h true }
    else none
  | .timer h d =>
    if cfg.hasTimer h = true ∧ s.returned h = false then some (s.closeDest h d) else none

def NoTimer (_ : Chain) (a : Action) : Prop := ∀ h d, a ≠ .timer h d

abbrev Reachable (cfg : Config) (s : Chain) : Prop := Reaches (step cfg) NoTimer {} s

/-! ### Small facts -/

theorem Hop.source_dest (h : Hop) (d : Dir) :
    (h.source d = d.origin ∧ h.dest d = .stream) ∨ (h.source d = .stream ∧ h.dest d = d.goal) := by
  cases h <;> cases d <;> decide

theorem Dir.links_ne (d : Dir) : d.origin ≠ .stream ∧ d.goal ≠ .stream ∧ d.origin ≠ d.goal := by
  cases d <;> decide

theorem update_update_apply {ι κ ν : Type} [DecidableEq ι] [DecidableEq κ] (f : ι → κ → ν)
    (i i' : ι) (k k' : κ) (v : ν) :
    update f i (update (f i) k v) i' k' =
      if i' = i ∧ k' = k then v else f i' k' := by
  by_cases hi : i' = i
  · subst hi
    simp [update_apply]
  · simp [hi]

theorem Chain.setPipe_pipe (s : Chain) (l l' : Link) (d d' : Dir) (p : Pipe) :
    (s.setPipe l d p).pipe l' d' = if l' = l ∧ d' = d then p else s.pipe l' d' :=
  update_update_apply s.pipe l l' d d' p

theorem Chain.setDone_done (s : Chain) (h h' : Hop) (d d' : Dir) :
    (s.setDone h d).done h' d' = if h' = h ∧ d' = d then true else s.done h' d' :=
  update_update_apply s.done h h' d d' true

theorem Chain.shutWrite_pipe (s : Chain) (l l' : Link) (d d' : Dir) :
    (s.shutWrite l d).pipe l' d' =
      if l' = l ∧ d' = d then { s.pipe l d with eof := true } else s.pipe l' d' :=
  s.setPipe_pipe l l' d d' _

theorem Chain.shutWrite_buf (s : Chain) (l l' : Link) (d d' : Dir) :
    ((s.shutWrite l d).pipe l' d').buf = (s.pipe l' d').buf := by
  rw [s.shutWrite_pipe]
  split_ifs with h
  · rw [h.1, h.2]
  · rfl

variable {a : Action} {d : Dir} {h : Hop} {s t : Chain}

/-- **No loop half-closes the stream**, whatever the wrappers. -/
theorem Config.halfCloses_stream (cfg : Config) (hd : h.dest d = .stream) :
    cfg.halfCloses h d = false := by
  obtain ⟨padding, rateLimited, viaTun⟩ := cfg
  cases h <;> cases d <;> cases padding <;> cases viaTun <;> first | rfl | cases hd

/-! ## Data in order -/

/-- The bytes on their way, the next one to arrive first. -/
def Chain.inFlight (s : Chain) (d : Dir) : Bytes :=
  (s.pipe d.goal d).buf ++ ((s.pipe .stream d).buf ++ (s.pipe d.origin d).buf)

/-- No byte is lost, made up or moved past another one. -/
def Conserved (s : Chain) : Prop := ∀ d, s.got d ++ s.inFlight d = s.sent d

theorem Chain.inFlight_congr
    (h : ∀ l, (t.pipe l d).buf = (s.pipe l d).buf) : t.inFlight d = s.inFlight d := by
  rw [Chain.inFlight, Chain.inFlight, h, h, h]

theorem Chain.inFlight_copy {n : Nat}
    (hsrc : (t.pipe (h.source d) d).buf = (s.pipe (h.source d) d).buf.drop n)
    (hdst : (t.pipe (h.dest d) d).buf =
      (s.pipe (h.dest d) d).buf ++ (s.pipe (h.source d) d).buf.take n)
    (hrest : ∀ l, l ≠ h.source d → l ≠ h.dest d → (t.pipe l d).buf = (s.pipe l d).buf) :
    t.inFlight d = s.inFlight d := by
  obtain ⟨horigin, hgoal, hne⟩ := d.links_ne
  unfold Chain.inFlight
  rcases h.source_dest d with ⟨hs, hd⟩ | ⟨hs, hd⟩
  · -- the hop that the bytes meet first: its destination is the stream
    rw [hs] at hsrc hdst hrest
    rw [hd] at hdst hrest
    rw [hsrc, hdst, hrest d.goal hne.symm hgoal, append_assoc, take_append_drop]
  · grind [append_assoc, take, take_append_drop]

theorem Chain.closeDest_buf (s : Chain) (h : Hop) (d d' : Dir) (l : Link) :
    ((s.closeDest h d).pipe l d').buf = (s.pipe l d').buf :=
  s.shutWrite_buf (h.dest d) l d d'

/-- The step moves bytes; the others end, close or finish something. -/
def Action.movesData : Action → Bool
  | .send _ _ | .recv _ _ | .copy _ _ _ => true
  | .closeSend _ | .recvEOF _ | .finish _ _ | .ret _ | .timer _ _ => false

variable {cfg : Config}

theorem step_buf (h : step cfg s a = some t) (ha : a.movesData = false) :
    (∀ l d, (t.pipe l d).buf = (s.pipe l d).buf) ∧ t.got = s.got ∧ t.sent = s.sent := by
  cases a with
  | send d bs | recv d n | copy k d n => cases ha
  | closeSend d =>
    cases h
    exact ⟨fun l d' => s.shutWrite_buf d.origin l d d', rfl, rfl⟩
  | recvEOF d =>
    simp only [step] at h
    split_ifs at h
    cases h
    exact ⟨fun _ _ => rfl, rfl, rfl⟩
  | finish k d =>
    simp only [step] at h
    split_ifs at h
    · cases h
      exact ⟨fun l d' => Chain.shutWrite_buf _ (k.dest d) l d d', rfl, rfl⟩
    · cases h
      exact ⟨fun _ _ => rfl, rfl, rfl⟩
  | ret k =>
    simp only [step] at h
    split_ifs at h
    cases h
    refine ⟨fun l d' => ?_, rfl, rfl⟩
    exact (Chain.closeDest_buf _ k .down d' l).trans (s.closeDest_buf k .up d' l)
  | timer k d =>
    simp only [step] at h
    split_ifs at h
    cases h
    exact ⟨fun l d' => s.closeDest_buf k d d' l, rfl, rfl⟩

/-- **Step.** Every step, a timer included, keeps the bytes in order. -/
theorem step_conserved (h : step cfg s a = some t) (hs : Conserved s) : Conserved t := by
  -- the steps that move no bytes
  have hstill : a.movesData = false → Conserved t := by
    intro ha d'
    obtain ⟨hbuf, hgot, hsent⟩ := step_buf h ha
    rw [hgot, hsent, Chain.inFlight_congr (fun l => hbuf l d')]
    exact hs d'
  cases a with
  | send d bs =>
    simp only [step] at h
    split_ifs at h
    cases h
    obtain ⟨horigin, -, hne⟩ := d.links_ne
    intro d'
    by_cases hd : d' = d
    · subst hd
      simp only [Chain.inFlight, Chain.setPipe_pipe, hne.symm, horigin.symm, and_true, if_true,
        if_false, update_self]
      rw [← hs d', Chain.inFlight]
      simp only [append_assoc]
      rfl
    · simp only [Chain.inFlight, Chain.setPipe_pipe, hd, and_false, if_false]
      rw [update_of_ne hd]
      exact hs d'
  | recv d n =>
    simp only [step] at h
    split_ifs at h
    cases h
    obtain ⟨-, hgoal, hne⟩ := d.links_ne
    intro d'
    by_cases hd : d' = d
    · subst hd
      simp only [Chain.inFlight, Chain.setPipe_pipe, hne, hgoal.symm, and_true, if_true,
        if_false, update_self]
      rw [append_assoc, ← append_assoc (take _ _), take_append_drop]
      exact hs d'
    · simp only [Chain.inFlight, Chain.setPipe_pipe, hd, and_false, if_false]
      rw [update_of_ne hd]
      exact hs d'
  | copy k d n =>
    simp only [step] at h
    split_ifs at h
    cases h
    have hne : k.source d ≠ k.dest d := by cases k <;> cases d <;> decide
    intro d'
    by_cases hd : d' = d
    · subst hd
      rw [Chain.inFlight_copy (s := s) (h := k) (n := n)]
      · exact hs d'
      · simp [Chain.setPipe_pipe, hne]
      · simp [Chain.setPipe_pipe]
      · intro l hl hl'
        simp [Chain.setPipe_pipe, hl, hl']
    · rw [Chain.inFlight_congr (s := s) (fun l => by simp [Chain.setPipe_pipe, hd])]
      exact hs d'
  | closeSend | recvEOF | finish | ret | timer => exact hstill rfl

/-! ## No end-of-file -/

/-- The stream is ended in neither direction, nor is what is written behind it. -/
structure Unended (s : Chain) : Prop where
  stream : ∀ d, (s.pipe .stream d).eof = false
  goal : ∀ d, (s.pipe d.goal d).eof = false
  closed : ∀ h l, s.closed h l = false
  finished : ∀ h d, s.done h d = true → h.source d = d.origin
  sawEOF : ∀ d, s.sawEOF d = false

theorem Hop.source_ne_origin (h : Hop) :
    h.source .up ≠ Dir.origin .up ∨ h.source .down ≠ Dir.origin .down := by
  cases h <;> decide

theorem Unended.not_both_done (hs : Unended s) (h : Hop) :
    ¬ (s.done h .up = true ∧ s.done h .down = true) := by
  rintro ⟨hup, hdown⟩
  rcases h.source_ne_origin with hne | hne
  · exact hne (hs.finished h .up hup)
  · exact hne (hs.finished h .down hdown)

theorem Unended.copyEnds (hs : Unended s) (he : s.CopyEnds h d) :
    h.source d = d.origin ∧ h.dest d = .stream ∧ (s.pipe d.origin d).buf = [] ∧
      (s.pipe d.origin d).eof = true := by
  rcases he with hclosed | ⟨hbuf, heof⟩ | ⟨hclosed, -⟩
  · rw [hs.closed] at hclosed
    cases hclosed
  · grind [h.source_dest, hs.stream]
  · rw [hs.closed] at hclosed
    cases hclosed

theorem Unended.of_eof (hs : Unended s)
    (hpipe : ∀ l d, (t.pipe l d).eof = (s.pipe l d).eof) (hdone : t.done = s.done)
    (hclosed : t.closed = s.closed) (hsaw : t.sawEOF = s.sawEOF) : Unended t where
  stream d := by rw [hpipe, hs.stream]
  goal d := by rw [hpipe, hs.goal]
  closed h l := by rw [hclosed, hs.closed]
  finished h d := by rw [hdone]; exact hs.finished h d
  sawEOF d := by rw [hsaw, hs.sawEOF]

theorem Chain.setPipe_eof {l : Link} {p : Pipe}
    (hp : p.eof = (s.pipe l d).eof) (l' : Link) (d' : Dir) :
    ((s.setPipe l d p).pipe l' d').eof = (s.pipe l' d').eof := by
  rw [s.setPipe_pipe]
  split_ifs with h
  · rw [hp, h.1, h.2]
  · rfl

/-- **Step.** Without a timer, no step ends the stream. -/
theorem step_unended (hs : Unended s)
    (hquiet : NoTimer s a) (h : step cfg s a = some t) : Unended t := by
  cases a with
  | send d bs | recv d n =>
    simp only [step] at h
    split_ifs at h
    cases h
    exact hs.of_eof (Chain.setPipe_eof rfl) rfl rfl rfl
  | closeSend d =>
    cases h
    obtain ⟨horigin, -, hne⟩ := d.links_ne
    refine ⟨fun d' => ?_, fun d' => ?_, hs.closed, hs.finished, hs.sawEOF⟩
    · rw [s.shutWrite_pipe, if_neg (fun hc => horigin hc.1.symm), hs.stream]
    · rw [s.shutWrite_pipe, if_neg, hs.goal]
      rintro ⟨hl, rfl⟩
      exact hne hl.symm
  | recvEOF d =>
    -- the reader finds no end-of-file
    simp only [step] at h
    split_ifs at h with hc
    rw [hs.goal] at hc
    cases hc.2
  | copy k d n =>
    simp only [step] at h
    split_ifs at h
    cases h
    have hne : k.dest d ≠ k.source d := by cases k <;> cases d <;> decide
    refine hs.of_eof (fun l d' => ?_) rfl rfl rfl
    rw [Chain.setPipe_eof, Chain.setPipe_eof]
    · rfl
    · rw [Chain.setPipe_pipe, if_neg (fun hc => hne hc.1)]
  | finish k d =>
    simp only [step] at h
    split_ifs at h with hc hhalf
    · -- a loop that ends writes to the stream, and the stream is not half-closed
      obtain ⟨-, hdst, -, -⟩ := hs.copyEnds hc.2
      rw [cfg.halfCloses_stream hdst] at hhalf
      cases hhalf.1
    · cases h
      refine ⟨hs.stream, hs.goal, hs.closed, fun k' d' => ?_, hs.sawEOF⟩
      rw [s.setDone_done]
      split_ifs with hk
      · rw [hk.1, hk.2]
        exact fun _ => (hs.copyEnds hc.2).1
      · exact hs.finished k' d'
  | ret k =>
    simp only [step] at h
    split_ifs at h with hc
    exact absurd hc.2 (hs.not_both_done k)
  | timer k d => exact absurd rfl (hquiet k d)

/-- **Run.** In a run without timers no end-of-file passes through the chain. -/
theorem unended_of_reachable (h : Reachable cfg s) : Unended s := by
  apply h.invariant Unended
  · exact ⟨fun _ => rfl, fun _ => rfl, fun _ _ => rfl, fun _ _ hd => (by cases hd), fun _ => rfl⟩
  · intro s a t hs hquiet hstep
    exact step_unended hs hquiet hstep

/-- **Run.** What has been read and what is on its way is what was sent. -/
theorem conserved_of_reachable (h : Reachable cfg s) : Conserved s := by
  apply h.invariant Conserved
  · exact fun _ => rfl
  · intro s a t hs _ hstep
    exact step_conserved hstep hs

/-! ## Every byte can be delivered -/

def Fresh (s : Chain) : Prop := (∀ h d, s.done h d = false) ∧ ∀ h l, s.closed h l = false

/-- The number of moves that the bytes of a direction still need. -/
def Chain.weight (s : Chain) (d : Dir) : Nat :=
  (s.pipe d.goal d).buf.length + 2 * (s.pipe .stream d).buf.length +
    3 * (s.pipe d.origin d).buf.length

theorem take_one_ne_nil {bs : Bytes} (h : bs ≠ []) : bs.take 1 ≠ [] := by
  cases bs with
  | nil => exact absurd rfl h
  | cons b bs => simp

theorem exists_copy (cfg : Config) (hs : Fresh s)
    (hne : (s.pipe (h.source d) d).buf ≠ []) :
    ∃ t, step cfg s (.copy h d 1) = some t ∧ Fresh t ∧ t.sent = s.sent ∧
      t.weight d < s.weight d := by
  refine ⟨_, if_pos ⟨hs.1 h d, hs.2 h _, hs.2 h _, by decide, take_one_ne_nil hne⟩, hs, rfl, ?_⟩
  obtain ⟨b, bs, hb⟩ := exists_cons_of_ne_nil hne
  obtain ⟨horigin, hgoal, hlinks⟩ := d.links_ne
  unfold Chain.weight
  rcases h.source_dest d with ⟨hsrc, hdst⟩ | ⟨hsrc, hdst⟩
  · rw [hsrc] at hb
    simp [hsrc, hdst, Chain.setPipe_pipe, horigin, hgoal, hlinks.symm, hb]
    omega
  · rw [hsrc] at hb
    simp [hsrc, hdst, Chain.setPipe_pipe, horigin, hgoal.symm, hlinks, hb]
    omega

/-- **Progress.** While bytes are on their way, some step brings one of them closer. -/
theorem exists_progress (cfg : Config) (hs : Fresh s)
    (hne : s.inFlight d ≠ []) :
    ∃ a t, NoTimer s a ∧ step cfg s a = some t ∧ Fresh t ∧ t.sent = s.sent ∧
      t.weight d < s.weight d := by
  have hhops : ∀ l, l = .stream ∨ l = d.origin → ∃ h : Hop, h.source d = l := by
    rintro l (rfl | rfl)
    · cases d
      · exact ⟨.server, rfl⟩
      · exact ⟨.client, rfl⟩
    · cases d
      · exact ⟨.client, rfl⟩
      · exact ⟨.server, rfl⟩
  by_cases hgoal : (s.pipe d.goal d).buf = []
  · -- the bytes are still before a hop
    obtain ⟨l, hl, hbuf⟩ : ∃ l, (l = .stream ∨ l = d.origin) ∧ (s.pipe l d).buf ≠ [] := by
      by_cases hstream : (s.pipe .stream d).buf = []
      · grind [Chain.inFlight]
      · exact ⟨.stream, .inl rfl, hstream⟩
    obtain ⟨h, rfl⟩ := hhops l hl
    obtain ⟨t, hstep, ht⟩ := exists_copy cfg hs hbuf
    exact ⟨_, t, (by rintro _ _ ⟨⟩), hstep, ht⟩
  · obtain ⟨-, hstream, hlinks⟩ := d.links_ne
    refine ⟨.recv d 1, _, (by rintro _ _ ⟨⟩), if_pos (take_one_ne_nil hgoal), hs, rfl, ?_⟩
    obtain ⟨b, bs, hb⟩ := exists_cons_of_ne_nil hgoal
    simp [Chain.weight, Chain.setPipe_pipe, hstream.symm, hlinks, hb]

/-- **Delivery** of all bytes on their way, by induction on the moves still needed. -/
theorem exists_delivered (cfg : Config) (hs : Fresh s) (d : Dir) :
    ∃ t, Reaches (step cfg) NoTimer s t ∧ Fresh t ∧ t.sent = s.sent ∧ t.inFlight d = [] := by
  induction hn : s.weight d using Nat.strongRecOn generalizing s with
  | _ n ih =>
    subst hn
    by_cases hne : s.inFlight d = []
    · exact ⟨s, Relation.ReflTransGen.refl, hs, rfl, hne⟩
    · obtain ⟨a, t, hquiet, hstep, ht, hsent, hlt⟩ := exists_progress cfg hs hne
      obtain ⟨u, hreach, hu, hsent', hdone⟩ := ih _ hlt ht rfl
      exact ⟨u, Relation.ReflTransGen.head ⟨a, hquiet, hstep⟩ hreach, hu,
        hsent'.trans hsent, hdone⟩

/-! ## End of stream -/

/-- The sender of direction `d` has sent exactly `B` and has closed its sending side. -/
def HalfClosedAfter (s : Chain) (d : Dir) (B : Bytes) : Prop :=
  s.sent d = B ∧ (s.pipe d.origin d).eof = true

/-- **End of stream is not passed on**, though the reader can get every byte. -/
theorem eof_not_passed_on (cfg : Config) (d : Dir) (B : Bytes) :
    (∃ s, Reachable cfg s ∧ HalfClosedAfter s d B ∧ s.got d = B) ∧
      ∀ s, Reachable cfg s → s.sawEOF d = false := by
  constructor
  · obtain ⟨s, hsend, hfresh, hsent⟩ : ∃ s, step cfg {} (.send d B) = some s ∧ Fresh s ∧
        s.sent d = B :=
      ⟨_, rfl, ⟨fun _ _ => rfl, fun _ _ => rfl⟩, update_self d _ _⟩
    obtain ⟨t, hreach, -, hsent', hdone⟩ := exists_delivered cfg hfresh d
    have ht : Reachable cfg t :=
      Relation.ReflTransGen.head ⟨_, (by rintro _ _ ⟨⟩), hsend⟩ hreach
    -- the sender closes after all of its bytes have arrived
    refine ⟨t.shutWrite d.origin d,
      Relation.ReflTransGen.tail ht ⟨.closeSend d, (by rintro _ _ ⟨⟩), rfl⟩, ⟨?_, ?_⟩, ?_⟩
    · exact (congrFun hsent' d).trans hsent
    · rw [t.shutWrite_pipe, if_pos ⟨rfl, rfl⟩]
    · have hgot := conserved_of_reachable ht d
      rw [hdone, append_nil, hsent', hsent] at hgot
      exact hgot
  · exact fun s hs => (unended_of_reachable hs).sawEOF d

def plainTunnel : Config := ⟨false, false, true⟩

/-- The target sends two bytes and closes, and the application reads them. -/
def closedRun : List Action :=
  [.send .down [0x48, 0x69], .closeSend .down, .copy .server .down relayBufSize,
    .finish .server .down, .copy .client .down relayBufSize, .recv .down 2]

/-- What the chain does not do by itself: an end sends or closes, or a timer fires. -/
def Action.external : Action → Bool
  | .send _ _ | .closeSend _ | .timer _ _ => true
  | .recv _ _ | .recvEOF _ | .copy _ _ _ | .finish _ _ | .ret _ => false

theorem Unended.stuck (hs : Unended s) (hbuf : ∀ l d, (s.pipe l d).buf = [])
    (hover : ∀ h d, h.source d = d.origin → (s.pipe d.origin d).eof = true → s.done h d = true)
    (ha : a.external = false) : step cfg s a = none := by
  cases a with
  | send d bs | closeSend d | timer k d => cases ha
  | recv d n =>
    apply if_neg
    intro hne
    rw [hbuf, take_nil] at hne
    exact hne rfl
  | recvEOF d =>
    apply if_neg
    rintro ⟨-, heof⟩
    rw [hs.goal] at heof
    cases heof
  | copy k d n =>
    apply if_neg
    rintro ⟨-, -, -, -, hne⟩
    rw [hbuf, take_nil] at hne
    exact hne rfl
  | finish k d =>
    apply if_neg
    rintro ⟨hdone, hends⟩
    obtain ⟨hsrc, -, -, heof⟩ := hs.copyEnds hends
    rw [hover k d hsrc heof] at hdone
    cases hdone
  | ret k =>
    apply if_neg
    rintro ⟨-, hboth⟩
    exact hs.not_both_done k hboth

/-- **A hung connection**: the application has all the bytes but no end-of-file, and nobody can take
a step. -/
theorem closedRun_hangs : ∃ s, run (step plainTunnel) {} closedRun = some s ∧
    HalfClosedAfter s .down [0x48, 0x69] ∧ s.got .down = [0x48, 0x69] ∧ s.sawEOF .down = false ∧
      ∀ a, a.external = false → step plainTunnel s a = none := by
  obtain ⟨s, hrun, hclosed, hgot, hsaw, hbuf, hover⟩ : ∃ s,
      run (step plainTunnel) {} closedRun = some s ∧ HalfClosedAfter s .down [0x48, 0x69] ∧
        s.got .down = [0x48, 0x69] ∧ s.sawEOF .down = false ∧
        (∀ l d, (s.pipe l d).buf = []) ∧
        ∀ h d, h.source d = d.origin → (s.pipe d.origin d).eof = true → s.done h d = true := by
    refine ⟨_, rfl, ⟨rfl, rfl⟩, rfl, rfl, ?_, ?_⟩
    · intro l d
      cases l <;> cases d <;> rfl
    · intro h d hsrc heof
      cases h <;> cases d <;> first | rfl | exact absurd hsrc (by decide) | cases heof
  have hreach : Reachable plainTunnel s := by
    apply reaches_of_allSteps hrun
    apply allSteps_of_forall_mem
    intro a ha _ k d hk
    subst hk
    simp [closedRun] at ha
  exact ⟨s, hrun, hclosed, hgot, hsaw,
    fun a ha => (unended_of_reachable hreach).stuck hbuf hover ha⟩

end NatProxy.WebRTC.RelayChain
