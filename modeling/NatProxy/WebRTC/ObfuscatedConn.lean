import NatProxy.Lib.AEAD
import NatProxy.Lib.Transition
import NatProxy.WebRTC.ReplayFilter

/-!
# The obfuscated packet connection

The model of `obfs.go`: two connections made from one key, the datagrams they seal, and the loop of
`readFromGCM` on whatever datagrams arrive. The network is the adversary: a step of the system is a
call of `WriteTo`, or the arrival of an arbitrary datagram at a call of `ReadFrom`. The cipher is
ideal (`NatProxy.Lib.AEAD`).

`readFrom_authenticated`: what is returned was sent by the other side, each packet at most once; a
genuine packet that fits and is new to the window is returned; and a rejected datagram changes
nothing.
-/

namespace NatProxy.WebRTC.Obfs

open Lib WebRTC.Replay Function

def nonceSize : Nat := 12

def gcmTagSize : Nat := 16

def obfsBufCap : Nat := nonceSize + 8192 + gcmTagSize

/-! ## The code -/

/-- `ObfuscatedPacketConn` without the diagnostic counters. -/
structure Conn (Key : Type) where
  sendAEAD : Key
  recvAEAD : Key
  nonceCounter : UInt64
  noncePrefix : Vector UInt8 4
  recvFilter : Option ReplayFilter
  isServer : Bool

section Code

variable {Key : Type}

/-- `hkdf` reads 32 bytes for a label, `newGCM` makes the cipher of a key. -/
def newObfuscatedPacketConn (hkdf : Bytes → String → Except String Bytes)
    (newGCM : Bytes → Except String Key) (rand : Except String (Vector UInt8 4))
    (key : Bytes) (isServer : Bool) : Except String (Conn Key) := do
  if key.length ≠ 32 then
    throw ("obfs: key must be 32 bytes, got " ++ toString key.length)
  let clientKey ← (hkdf key "natproxy-client-to-server").mapError ("obfs: derive client key: " ++ ·)
  let serverKey ← (hkdf key "natproxy-server-to-client").mapError ("obfs: derive server key: " ++ ·)
  let clientAEAD ← (newGCM clientKey).mapError ("obfs: create client AEAD: " ++ ·)
  let serverAEAD ← (newGCM serverKey).mapError ("obfs: create server AEAD: " ++ ·)
  let noncePrefix ← rand.mapError ("obfs: generate nonce prefix: " ++ ·)
  return {
    sendAEAD := if isServer then serverAEAD else clientAEAD
    recvAEAD := if isServer then clientAEAD else serverAEAD
    nonceCounter := 0
    noncePrefix := noncePrefix
    recvFilter := none
    isServer := isServer }

variable (aead : AEAD Key gcmTagSize)

/-- The nonce of the next packet: `[4B prefix][8B counter]`. -/
def Conn.nextNonce (c : Conn Key) : Bytes :=
  c.noncePrefix.toList ++ putUint64 (c.nonceCounter + 1)

/-- The datagram for the socket, what the call returns, and the connection afterwards. -/
def Conn.writeToGCM (c : Conn Key) (p : Bytes) (sock : Except String Unit) :
    Bytes × Except String Nat × Conn Key :=
  let nonce := c.nextNonce
  (nonce ++ aead.encrypt c.sendAEAD nonce p, sock.map fun _ => p.length,
    { c with nonceCounter := c.nonceCounter + 1 })

/-- The length of the buffer for the socket: a pooled one cut to size, or a new one. -/
def readBufLen (p : Bytes) : Nat :=
  let needed := nonceSize + p.length + gcmTagSize
  if needed ≤ obfsBufCap then min needed obfsBufCap else needed

/-- `Open(p[:0], …)`: the plaintext is in the caller's buffer if it fits, otherwise in a new array.
-/
def openInto (p plaintext : Bytes) : Bytes :=
  if plaintext.length ≤ p.length then plaintext ++ p.drop plaintext.length else p

/-- A datagram is skipped, or the call returns `n` with the caller's buffer `p`. -/
inductive Verdict where
  | tooShort
  | decryptError
  | replayReject
  | returned (n : Nat) (p : Bytes)
  deriving DecidableEq

/-- The counter in a nonce, `binary.BigEndian.Uint64(nonce[4:12])`. -/
def nonceCounterOf (nonce : Bytes) : UInt64 := getUint64 ((nonce.take 12).drop 4)

variable [DecidableEq Key]

/-- One iteration of `readFromGCM`; `log` is what has been sealed so far. -/
def Conn.iteration (log : List (Sealed Key)) (c : Conn Key) (p datagram : Bytes) :
    Verdict × Conn Key :=
  let buf := datagram.take (readBufLen p)
  if buf.length < nonceSize + gcmTagSize then
    (.tooShort, c)
  else
    let nonce := buf.take nonceSize
    let ciphertext := buf.drop nonceSize
    match aead.tryOpen log c.recvAEAD nonce ciphertext with
    | none => (.decryptError, c)
    | some plaintext =>
      match c.recvFilter with
      | none => (.returned plaintext.length (openInto p plaintext), c)
      | some filter =>
        let (ok, filter) := filter.check (nonceCounterOf nonce)
        if ok then
          (.returned plaintext.length (openInto p plaintext),
            { c with recvFilter := some filter })
        else
          (.replayReject, { c with recvFilter := some filter })

/-- `readFromGCM` on the results of the socket; without a result if the call is still waiting. -/
def Conn.readFromGCM (log : List (Sealed Key)) (p : Bytes) :
    Conn Key → List (Except String Bytes) → Option (Except String (Nat × Bytes)) × Conn Key
  | c, [] => (none, c)
  | c, .error err :: _ => (some (.error err), c)
  | c, .ok datagram :: rest =>
    match c.iteration aead log p datagram with
    | (.returned n q, c) => (some (.ok (n, q)), c)
    | (_, c) => Conn.readFromGCM log p c rest

end Code

/-! ## Two connections -/

inductive Side where
  | client
  | server
  deriving DecidableEq

def Side.other : Side → Side
  | .client => .server
  | .server => .client

/-- The log of the cipher, and what each side sent and returned, the latest first. -/
structure State (Key : Type) where
  conn : Side → Conn Key
  log : List (Sealed Key)
  sent : Side → List (Bytes × Bytes)
  received : Side → List (Bytes × Bytes)

inductive Action where
  /-- a call of `WriteTo` with the plaintext `p`; the socket may fail -/
  | writeTo (side : Side) (p : Bytes) (sock : Except String Unit)
  /-- a datagram arrives at a call of `ReadFrom` with the buffer `p` -/
  | arrive (side : Side) (p datagram : Bytes)

section System

variable {Key : Type} [DecidableEq Key] (aead : AEAD Key gcmTagSize)

/-- What the caller of `ReadFrom` gets from a datagram, with the bytes that were read. -/
def Verdict.packet (v : Verdict) (p datagram : Bytes) : List (Bytes × Bytes) :=
  match v with
  | .returned n q => [(datagram.take (readBufLen p), q.take n)]
  | _ => []

def step (s : State Key) : Action → Option (State Key)
  | .writeTo side p sock =>
    let (datagram, _, c) := (s.conn side).writeToGCM aead p sock
    some { s with
      conn := update s.conn side c
      log := ⟨(s.conn side).sendAEAD, (s.conn side).nextNonce, p⟩ :: s.log
      sent := update s.sent side ((datagram, p) :: s.sent side) }
  | .arrive side p datagram =>
    let (verdict, c) := (s.conn side).iteration aead s.log p datagram
    some { s with
      conn := update s.conn side c
      received := update s.received side
        (verdict.packet p datagram ++ s.received side) }

/-- Both connections with their replay filters set; nothing has been sent. -/
def start (client server : Conn Key) : State Key where
  conn
    | .client => { client with recvFilter := some newReplayFilter }
    | .server => { server with recvFilter := some newReplayFilter }
  log := []
  sent _ := []
  received _ := []

/-- The counter of the side does not run over. -/
def Few (s : State Key) : Action → Prop
  | .writeTo side _ _ => (s.sent side).length + 1 < 18446744073709551616
  | .arrive _ _ _ => True

instance (s : State Key) : (a : Action) → Decidable (Few s a)
  | .writeTo side _ _ => inferInstanceAs
      (Decidable ((s.sent side).length + 1 < 18446744073709551616))
  | .arrive _ _ _ => isTrue trivial

end System

/-! ## One datagram -/

section Iteration

open List

variable {Key : Type}

theorem readBufLen_eq (p : Bytes) : readBufLen p = nonceSize + p.length + gcmTagSize := by
  rw [readBufLen]
  split_ifs with hpooled
  · exact min_eq_left hpooled
  · rfl

theorem take_openInto {p plaintext : Bytes} (h : plaintext.length ≤ p.length) :
    (openInto p plaintext).take plaintext.length = plaintext := by
  rw [openInto, if_pos h, take_left]

theorem length_nextNonce (c : Conn Key) : c.nextNonce.length = nonceSize := by
  rw [Conn.nextNonce, length_append, putUint64, length_putNat, Vector.length_toList]
  rfl

theorem nonceCounterOf_nextNonce (c : Conn Key) :
    nonceCounterOf c.nextNonce = c.nonceCounter + 1 := by
  have htake : c.nextNonce.take 12 = c.nextNonce :=
    take_of_length_le (Nat.le_of_eq (length_nextNonce c))
  have hdrop : c.nextNonce.drop 4 = putUint64 (c.nonceCounter + 1) :=
    drop_left' c.noncePrefix.length_toList
  rw [nonceCounterOf, htake, hdrop, getUint64_putUint64]

variable [DecidableEq Key] (aead : AEAD Key gcmTagSize)

theorem iteration_cases {log : List (Sealed Key)} {c : Conn Key} {rf : ReplayFilter}
    (hfilter : c.recvFilter = some rf) (p datagram : Bytes) :
    (∃ v, c.iteration aead log p datagram = (v, c) ∧ v.packet p datagram = []) ∨
      ∃ nonce plaintext, ⟨c.recvAEAD, nonce, plaintext⟩ ∈ log ∧
        nonce.length = nonceSize ∧
        datagram.take (readBufLen p) = nonce ++ aead.encrypt c.recvAEAD nonce plaintext ∧
        (rf.check (nonceCounterOf nonce)).1 = true ∧
        ∃ v, v.packet p datagram = [(datagram.take (readBufLen p), plaintext)] ∧
          c.iteration aead log p datagram =
            (v, { c with recvFilter := some (rf.check (nonceCounterOf nonce)).2 }) := by
  rw [Conn.iteration]
  by_cases hshort : (datagram.take (readBufLen p)).length < nonceSize + gcmTagSize
  · exact .inl ⟨.tooShort, if_pos hshort, rfl⟩
  · rw [if_neg hshort]
    have hbuf := take_append_drop nonceSize (datagram.take (readBufLen p))
    have hnonce : ((datagram.take (readBufLen p)).take nonceSize).length = nonceSize := by
      rw [length_take]
      exact min_eq_left (by omega)
    generalize (datagram.take (readBufLen p)).take nonceSize = nonce at *
    generalize hcipher : (datagram.take (readBufLen p)).drop nonceSize = ciphertext at *
    cases hopen : aead.tryOpen log c.recvAEAD nonce ciphertext with
    | none =>
      refine .inl ⟨.decryptError, ?_, rfl⟩
      simp only [hopen]
    | some plaintext =>
      obtain ⟨hmem, hseal⟩ := aead.tryOpen_eq_some_iff.1 hopen
      simp only [hopen, hfilter]
      cases hok : (rf.check (nonceCounterOf nonce)).1 with
      | false =>
        refine .inl ⟨.replayReject, ?_, rfl⟩
        rw [if_neg Bool.false_ne_true, check_of_rejected hok, ← hfilter]
      | true =>
        -- the plaintext is at least a nonce and a tag shorter than the bytes read
        have hfits : plaintext.length ≤ p.length := by
          have hlen := aead.length_encrypt c.recvAEAD nonce plaintext
          have hread : (datagram.take (readBufLen p)).length ≤ readBufLen p :=
            length_take_le _ _
          rw [← hbuf, length_append, hnonce, ← hseal, hlen, readBufLen_eq] at hread
          omega
        refine .inr ⟨nonce, plaintext, hmem, hnonce, by rw [hseal, hbuf], hok,
          .returned plaintext.length (openInto p plaintext), ?_, rfl⟩
        rw [Verdict.packet, take_openInto hfits]

theorem iteration_genuine {log : List (Sealed Key)} {c : Conn Key} {rf : ReplayFilter}
    (hfilter : c.recvFilter = some rf) {p nonce plaintext : Bytes}
    (hmem : ⟨c.recvAEAD, nonce, plaintext⟩ ∈ log) (hnonce : nonce.length = nonceSize)
    (hfits : plaintext.length ≤ p.length) (hok : (rf.check (nonceCounterOf nonce)).1 = true) :
    c.iteration aead log p (nonce ++ aead.encrypt c.recvAEAD nonce plaintext) =
      (.returned plaintext.length (openInto p plaintext),
        { c with recvFilter := some (rf.check (nonceCounterOf nonce)).2 }) := by
  have hlen := aead.length_encrypt c.recvAEAD nonce plaintext
  have hopen : aead.tryOpen log c.recvAEAD nonce (aead.encrypt c.recvAEAD nonce plaintext) =
      some plaintext := aead.tryOpen_eq_some_iff.2 ⟨hmem, rfl⟩
  have hwhole : (nonce ++ aead.encrypt c.recvAEAD nonce plaintext).take (readBufLen p) =
      nonce ++ aead.encrypt c.recvAEAD nonce plaintext := by
    apply take_of_length_le
    rw [length_append, hnonce, hlen, readBufLen_eq]
    omega
  rw [Conn.iteration, hwhole, if_neg (by rw [length_append]; omega),
    take_left' hnonce, drop_left' hnonce]
  simp only [hopen, hfilter, hok, if_true]

end Iteration

/-! ## Whole runs -/

section Runs

variable {Key : Type} (aead : AEAD Key gcmTagSize)

open List

def packetCounter (x : Bytes × Bytes) : UInt64 := nonceCounterOf (x.1.take nonceSize)

/-- The datagram of a packet is what `writeToGCM` made of its plaintext under the key. -/
def Genuine (log : List (Sealed Key)) (key : Key) (x : Bytes × Bytes) : Prop :=
  ∃ nonce, nonce.length = nonceSize ∧ ⟨key, nonce, x.2⟩ ∈ log ∧
    x.1 = nonce ++ aead.encrypt key nonce x.2

structure Sender (s : State Key) (side : Side) : Prop where
  counter : (s.conn side).nonceCounter.toNat = (s.sent side).length
  bound : ∀ x ∈ s.sent side, (packetCounter x).toNat ≤ (s.sent side).length
  nodup : ((s.sent side).map packetCounter).Nodup
  genuine : ∀ x ∈ s.sent side, Genuine aead s.log (s.conn side).sendAEAD x

structure Receiver (s : State Key) (side : Side) : Prop where
  subset : s.received side ⊆ s.sent side.other
  nodup : ((s.received side).map packetCounter).Nodup
  filter : ∃ rf, (s.conn side).recvFilter = some rf ∧
    Represents rf ((s.received side).map packetCounter)

structure Inv (s : State Key) : Prop where
  keys : ∀ side, (s.conn side).recvAEAD = (s.conn side.other).sendAEAD
  distinct : ∀ side, (s.conn side.other).sendAEAD ≠ (s.conn side).sendAEAD
  logged : ∀ m ∈ s.log, ∃ side, m.key = (s.conn side).sendAEAD ∧
    (m.nonce ++ aead.encrypt m.key m.nonce m.plaintext, m.plaintext) ∈ s.sent side
  sender : ∀ side, Sender aead s side
  receiver : ∀ side, Receiver s side

theorem packetCounter_append {nonce : Bytes} (h : nonce.length = nonceSize) (c p : Bytes) :
    packetCounter (nonce ++ c, p) = nonceCounterOf nonce := by
  rw [packetCounter, take_left' h]

theorem other_ne (side : Side) : side.other ≠ side := by
  cases side with
  | client | server => exact Side.noConfusion

theorem eq_or_eq_other (side i : Side) : i = side ∨ i = side.other := by
  cases side <;> cases i <;> simp [Side.other]

variable {aead}

structure Wrote (aead : AEAD Key gcmTagSize) (s : State Key) (side : Side) (p : Bytes)
    (t : State Key) : Prop where
  keys : ∀ i, (t.conn i).sendAEAD = (s.conn i).sendAEAD ∧
    (t.conn i).recvAEAD = (s.conn i).recvAEAD
  filter : ∀ i, (t.conn i).recvFilter = (s.conn i).recvFilter
  received : t.received = s.received
  log : t.log = ⟨(s.conn side).sendAEAD, (s.conn side).nextNonce, p⟩ :: s.log
  counter : (t.conn side).nonceCounter = (s.conn side).nonceCounter + 1
  sent : t.sent side =
    ((s.conn side).nextNonce ++
      aead.encrypt (s.conn side).sendAEAD (s.conn side).nextNonce p, p) :: s.sent side
  other : t.conn side.other = s.conn side.other ∧ t.sent side.other = s.sent side.other

variable {s t : State Key} {side : Side} {p : Bytes}

/-- A datagram changes nothing, or the receiver gets a sealed packet that its filter lets in. -/
structure Arrived (aead : AEAD Key gcmTagSize) (s : State Key) (side : Side) (p datagram : Bytes)
    (t : State Key) : Prop where
  log : t.log = s.log
  sent : t.sent = s.sent
  other : t.conn side.other = s.conn side.other ∧ t.received side.other = s.received side.other
  cases : (t.conn side = s.conn side ∧ t.received side = s.received side) ∨
    ∃ rf nonce plaintext, (s.conn side).recvFilter = some rf ∧
      ⟨(s.conn side).recvAEAD, nonce, plaintext⟩ ∈ s.log ∧ nonce.length = nonceSize ∧
      (rf.check (nonceCounterOf nonce)).1 = true ∧
      t.conn side =
        { s.conn side with recvFilter := some (rf.check (nonceCounterOf nonce)).2 } ∧
      t.received side =
        (nonce ++ aead.encrypt (s.conn side).recvAEAD nonce plaintext, plaintext) ::
          s.received side

variable {datagram : Bytes}

/-! ### The invariant -/

theorem Genuine.mono {log log' : List (Sealed Key)} {key : Key} {x : Bytes × Bytes}
    (h : Genuine aead log key x) (hlog : log ⊆ log') : Genuine aead log' key x := by
  obtain ⟨nonce, hlen, hmem, hwire⟩ := h
  exact ⟨nonce, hlen, hlog hmem, hwire⟩

theorem Sender.wrote (h : Sender aead s side) (hw : Wrote aead s side p t)
    (hfew : (s.sent side).length + 1 < 18446744073709551616) : Sender aead t side := by
  have hnext : ((s.conn side).nonceCounter + 1).toNat = (s.sent side).length + 1 := by
    rw [UInt64.toNat_add, h.counter]
    exact Nat.mod_eq_of_lt hfew
  have hcounter : ∀ c, packetCounter ((s.conn side).nextNonce ++ c, p) =
      (s.conn side).nonceCounter + 1 := by
    intro c
    rw [packetCounter_append (length_nextNonce _), nonceCounterOf_nextNonce]
  constructor
  case counter => rw [hw.counter, hw.sent, length_cons, hnext]
  case bound =>
    intro x hx
    rw [hw.sent] at hx ⊢
    rw [length_cons]
    rcases mem_cons.1 hx with rfl | hx
    · rw [hcounter, hnext]
    · have := h.bound x hx
      omega
  case nodup =>
    rw [hw.sent, map_cons, nodup_cons, hcounter]
    refine ⟨?_, h.nodup⟩
    -- the counter of the new packet is above those of all earlier ones
    intro hmem
    obtain ⟨x, hx, hsame⟩ := mem_map.1 hmem
    have hle := h.bound x hx
    rw [hsame, hnext] at hle
    omega
  case genuine =>
    intro x hx
    rw [hw.sent] at hx
    rw [hw.log, (hw.keys side).1]
    rcases mem_cons.1 hx with rfl | hx
    · exact ⟨_, length_nextNonce _, mem_cons_self, rfl⟩
    · exact (h.genuine x hx).mono (subset_cons_self _ _)

theorem Sender.frame (h : Sender aead s side)
    (hcounter : (t.conn side).nonceCounter = (s.conn side).nonceCounter)
    (hkey : (t.conn side).sendAEAD = (s.conn side).sendAEAD)
    (hsent : t.sent side = s.sent side) (hlog : s.log ⊆ t.log) : Sender aead t side where
  counter := by rw [hcounter, hsent, h.counter]
  bound := by rw [hsent]; exact h.bound
  nodup := by rw [hsent]; exact h.nodup
  genuine x hx := by
    rw [hsent] at hx
    rw [hkey]
    exact (h.genuine x hx).mono hlog

theorem Receiver.frame (h : Receiver s side)
    (hfilter : (t.conn side).recvFilter = (s.conn side).recvFilter)
    (hreceived : t.received side = s.received side)
    (hsent : s.sent side.other ⊆ t.sent side.other) : Receiver t side where
  subset := by rw [hreceived]; exact fun x hx => hsent (h.subset hx)
  nodup := by rw [hreceived]; exact h.nodup
  filter := by rw [hreceived, hfilter]; exact h.filter

theorem Inv.wrote (h : Inv aead s) (hw : Wrote aead s side p t)
    (hfew : (s.sent side).length + 1 < 18446744073709551616) : Inv aead t := by
  have hsent : ∀ i, s.sent i ⊆ t.sent i := by
    intro i
    rcases eq_or_eq_other side i with rfl | rfl
    · rw [hw.sent]
      exact subset_cons_self _ _
    · rw [hw.other.2]
      exact List.Subset.refl _
  constructor
  case keys =>
    intro i
    rw [(hw.keys i).2, (hw.keys i.other).1]
    exact h.keys i
  case distinct =>
    intro i
    rw [(hw.keys i).1, (hw.keys i.other).1]
    exact h.distinct i
  case logged =>
    grind [hw.log, hw.keys, hw.sent, h.logged]
  case sender =>
    intro i
    rcases eq_or_eq_other side i with rfl | rfl
    · exact (h.sender i).wrote hw hfew
    · refine (h.sender side.other).frame ?_ (hw.keys _).1 hw.other.2 ?_
      · rw [hw.other.1]
      · rw [hw.log]
        exact subset_cons_self _ _
  case receiver =>
    intro i
    refine (h.receiver i).frame (hw.filter i) ?_ (hsent _)
    rw [hw.received]

theorem Inv.mem_sent (h : Inv aead s) {nonce plaintext : Bytes}
    (hmem : ⟨(s.conn side).recvAEAD, nonce, plaintext⟩ ∈ s.log) :
    (nonce ++ aead.encrypt (s.conn side).recvAEAD nonce plaintext, plaintext) ∈
      s.sent side.other := by
  obtain ⟨i, hkey, hsent⟩ := h.logged _ hmem
  rcases eq_or_eq_other side i with rfl | rfl
  · -- its own key is another one
    rw [h.keys i] at hkey
    exact absurd hkey (h.distinct i)
  · exact hsent

theorem Receiver.arrived (h : Inv aead s)
    (ha : Arrived aead s side p datagram t) : Receiver t side := by
  obtain ⟨hconn, hreceived⟩ |
    ⟨rf, nonce, plaintext, hfilter, hmem, hlen, hok, hconn, hreceived⟩ := ha.cases
  · refine (h.receiver side).frame ?_ hreceived ?_
    · rw [hconn]
    · rw [ha.sent]
      exact List.Subset.refl _
  · obtain ⟨rf', hfilter', hrep⟩ := (h.receiver side).filter
    rw [hfilter] at hfilter'
    cases hfilter'
    obtain ⟨haccepts, -, hrep'⟩ | ⟨-, hrejected⟩ := check_represents hrep (nonceCounterOf nonce)
    · have hcounter := packetCounter_append hlen
        (aead.encrypt (s.conn side).recvAEAD nonce plaintext) plaintext
      constructor
      case subset =>
        rw [hreceived, ha.sent]
        exact cons_subset.2 ⟨h.mem_sent hmem, (h.receiver side).subset⟩
      case nodup =>
        rw [hreceived, map_cons, hcounter]
        exact nodup_cons.2 ⟨haccepts.1, (h.receiver side).nodup⟩
      case filter =>
        refine ⟨_, by rw [hconn], ?_⟩
        rw [hreceived, map_cons, hcounter]
        exact hrep'
    · rw [hrejected] at hok
      cases hok

theorem Arrived.conn (ha : Arrived aead s side p datagram t) (i : Side) :
    (t.conn i).sendAEAD = (s.conn i).sendAEAD ∧ (t.conn i).recvAEAD = (s.conn i).recvAEAD ∧
      (t.conn i).nonceCounter = (s.conn i).nonceCounter := by
  rcases eq_or_eq_other side i with rfl | rfl
  · grind [ha.cases]
  · rw [ha.other.1]
    exact ⟨rfl, rfl, rfl⟩

theorem Inv.arrived (h : Inv aead s) (ha : Arrived aead s side p datagram t) : Inv aead t := by
  constructor
  case keys =>
    intro i
    rw [(ha.conn i).2.1, (ha.conn i.other).1]
    exact h.keys i
  case distinct =>
    intro i
    rw [(ha.conn i).1, (ha.conn i.other).1]
    exact h.distinct i
  case logged =>
    intro m hm
    rw [ha.log] at hm
    obtain ⟨i, hkey, hmem⟩ := h.logged m hm
    exact ⟨i, by rw [hkey, (ha.conn i).1], by rw [ha.sent]; exact hmem⟩
  case sender =>
    intro i
    refine (h.sender i).frame (ha.conn i).2.2 (ha.conn i).1 (by rw [ha.sent]) ?_
    rw [ha.log]
    exact List.Subset.refl _
  case receiver =>
    intro i
    rcases eq_or_eq_other side i with rfl | rfl
    · exact Receiver.arrived h ha
    · refine (h.receiver side.other).frame ?_ ha.other.2 ?_
      · rw [ha.other.1]
      · rw [ha.sent]
        exact List.Subset.refl _

/-! ### The result -/

/-- Only packets of the other side were returned, each at most once: the datagrams of a side are all
different. -/
def AtMostOnce (s : State Key) : Prop :=
  ∀ side, s.received side ⊆ s.sent side.other ∧ (s.received side).Nodup ∧
    ((s.sent side).map Prod.fst).Nodup

theorem Inv.atMostOnce (h : Inv aead s) : AtMostOnce s := by
  intro side
  refine ⟨(h.receiver side).subset, (h.receiver side).nodup.of_map _, ?_⟩
  have hnodup := (h.sender side).nodup
  rw [show packetCounter = (fun d => nonceCounterOf (d.take nonceSize)) ∘ Prod.fst from rfl,
    ← map_map] at hnodup
  exact hnodup.of_map _

variable {client server : Conn Key}

theorem inv_start (hclient : client.recvAEAD = server.sendAEAD)
    (hserver : server.recvAEAD = client.sendAEAD) (hczero : client.nonceCounter = 0)
    (hszero : server.nonceCounter = 0) (hkeys : client.sendAEAD ≠ server.sendAEAD) :
    Inv aead (start client server) := by
  constructor
  case keys =>
    intro side
    cases side with
    | client => exact hclient
    | server => exact hserver
  case distinct =>
    intro side
    cases side with
    | client => exact hkeys.symm
    | server => exact hkeys
  case logged => exact fun m hm => absurd hm not_mem_nil
  case sender =>
    intro side
    have hzero : ((start client server).conn side).nonceCounter = 0 := by
      cases side with
      | client => exact hczero
      | server => exact hszero
    exact ⟨by rw [hzero]; rfl, fun x hx => absurd hx not_mem_nil, nodup_nil,
      fun x hx => absurd hx not_mem_nil⟩
  case receiver =>
    intro side
    have hfilter : ((start client server).conn side).recvFilter = some newReplayFilter := by
      cases side with
      | client | server => rfl
    exact ⟨nil_subset _, nodup_nil, newReplayFilter, hfilter, represents_new⟩

/-! ### Every run -/

variable [DecidableEq Key]

theorem wrote_of_step {sock : Except String Unit}
    (h : step aead s (.writeTo side p sock) = some t) : Wrote aead s side p t := by
  obtain ⟨c, hc, hconn⟩ : ∃ c : Conn Key,
      c = { s.conn side with nonceCounter := (s.conn side).nonceCounter + 1 } ∧
        t.conn = update s.conn side c := by
    cases h
    exact ⟨_, rfl, rfl⟩
  have hself : t.conn side = c := by rw [hconn, update_self]
  have hother : t.conn side.other = s.conn side.other := by
    rw [hconn, update_of_ne (other_ne side)]
  constructor
  case keys =>
    intro i
    rcases eq_or_eq_other side i with rfl | rfl
    · rw [hself, hc]
      exact ⟨rfl, rfl⟩
    · rw [hother]
      exact ⟨rfl, rfl⟩
  case filter =>
    intro i
    rcases eq_or_eq_other side i with rfl | rfl
    · rw [hself, hc]
    · rw [hother]
  case received =>
    cases h
    rfl
  case log =>
    cases h
    rfl
  case counter => rw [hself, hc]
  case sent =>
    cases h
    exact update_self side _ s.sent
  case other =>
    refine ⟨hother, ?_⟩
    cases h
    exact update_of_ne (other_ne side) _ s.sent

theorem arrived_of_step {rf : ReplayFilter} (hfilter : (s.conn side).recvFilter = some rf)
    (h : step aead s (.arrive side p datagram) = some t) : Arrived aead s side p datagram t := by
  obtain ⟨verdict, c, hiter⟩ : ∃ verdict c,
      (s.conn side).iteration aead s.log p datagram = (verdict, c) := ⟨_, _, rfl⟩
  rw [step, hiter] at h
  cases h
  have hself : update s.conn side c side = c := update_self side c s.conn
  have hnew : update s.received side (verdict.packet p datagram ++ s.received side) side =
      verdict.packet p datagram ++ s.received side := update_self side _ s.received
  constructor
  case log => rfl
  case sent => rfl
  case other =>
    grind [other_ne, update_of_ne]
  case cases =>
    obtain ⟨v, heq, hnone⟩ | ⟨nonce, plaintext, hmem, hlen, hbytes, hok, v, hpacket, heq⟩ :=
      iteration_cases aead hfilter p datagram
    · rw [hiter] at heq
      cases heq
      rw [hnone, nil_append] at hnew
      exact .inl ⟨hself, by rw [hnone]; exact hnew⟩
    · grind

theorem Inv.step {a : Action} (h : Inv aead s) (hfew : Few s a)
    (hstep : Obfs.step aead s a = some t) : Inv aead t := by
  cases a with
  | writeTo side p sock => exact h.wrote (wrote_of_step hstep) hfew
  | arrive side p datagram =>
    obtain ⟨rf, hfilter, -⟩ := (h.receiver side).filter
    exact h.arrived (arrived_of_step hfilter hstep)

/-- A packet that fits the buffer and is new to the window is returned with its plaintext; a
datagram that is not returned changes nothing. -/
structure Delivers (s : State Key) (side : Side) (p datagram : Bytes) (t : State Key) : Prop where
  genuine : ∀ plaintext, (datagram, plaintext) ∈ s.sent side.other →
    plaintext.length ≤ p.length →
    Accepts ((s.received side).map packetCounter) (packetCounter (datagram, plaintext)) →
    t.received side = (datagram, plaintext) :: s.received side
  rejected : t.received side = s.received side → t.conn side = s.conn side

theorem Inv.delivers (h : Inv aead s) (hstep : Obfs.step aead s (.arrive side p datagram) = some t)
    : Delivers s side p datagram t := by
  obtain ⟨rf, hfilter, hrep⟩ := (h.receiver side).filter
  constructor
  case genuine =>
    intro plaintext hsent hfits haccepts
    obtain ⟨nonce, hlen, hmem, hwire⟩ := (h.sender side.other).genuine _ hsent
    rw [← h.keys side] at hmem hwire
    dsimp only at hmem hwire
    rw [hwire, packetCounter_append hlen] at haccepts
    have hok : (rf.check (nonceCounterOf nonce)).1 = true := by
      obtain ⟨-, hok, -⟩ | ⟨hnot, -⟩ := check_represents hrep (nonceCounterOf nonce)
      · exact hok
      · exact absurd haccepts hnot
    have hiter := iteration_genuine aead hfilter hmem hlen hfits hok
    have hwhole : datagram.take (readBufLen p) = datagram := by
      apply take_of_length_le
      rw [hwire, length_append, hlen, aead.length_encrypt, readBufLen_eq]
      omega
    rw [← hwire] at hiter
    rw [Obfs.step, hiter] at hstep
    cases hstep
    show update s.received side _ side = _
    rw [update_self, Verdict.packet, take_openInto hfits, hwhole]
    rfl
  case rejected =>
    intro hsame
    obtain ⟨hconn, -⟩ | ⟨_, _, _, -, -, -, -, -, hreceived⟩ := (arrived_of_step hfilter hstep).cases
    · exact hconn
    · rw [hreceived] at hsame
      exact absurd hsame (cons_ne_self _ _)

end Runs

section Result

variable {Key : Type} {hkdf : Bytes → String → Except String Bytes}
  {newGCM : Bytes → Except String Key} {rand randClient randServer : Except String (Vector UInt8 4)}
  {key : Bytes} {client server : Conn Key}

theorem ok_of_bind {α β : Type} {x : Except String α} {f : α → Except String β} {b : β}
    (h : (x >>= f) = .ok b) : ∃ a, x = .ok a ∧ f a = .ok b := by
  cases x with
  | error err => cases h
  | ok a => exact ⟨a, rfl, h⟩

theorem ok_of_mapError {α : Type} {x : Except String α} {wrap : String → String} {a : α}
    (h : x.mapError wrap = .ok a) : x = .ok a := by
  cases x with
  | error err => cases h
  | ok b =>
    cases h
    rfl

theorem newObfuscatedPacketConn_ok {isServer : Bool} {c : Conn Key}
    (h : newObfuscatedPacketConn hkdf newGCM rand key isServer = .ok c) :
    ∃ clientAEAD serverAEAD,
      (hkdf key "natproxy-client-to-server" >>= newGCM) = .ok clientAEAD ∧
      (hkdf key "natproxy-server-to-client" >>= newGCM) = .ok serverAEAD ∧
      c.sendAEAD = (if isServer then serverAEAD else clientAEAD) ∧
      c.recvAEAD = (if isServer then clientAEAD else serverAEAD) ∧ c.nonceCounter = 0 := by
  rw [newObfuscatedPacketConn] at h
  by_cases hlen : key.length ≠ 32
  · rw [if_pos hlen] at h
    cases h
  · rw [if_neg hlen] at h
    obtain ⟨clientKey, hck, h⟩ := ok_of_bind h
    obtain ⟨serverKey, hsk, h⟩ := ok_of_bind h
    obtain ⟨clientAEAD, hca, h⟩ := ok_of_bind h
    obtain ⟨serverAEAD, hsa, h⟩ := ok_of_bind h
    obtain ⟨noncePrefix, -, h⟩ := ok_of_bind h
    cases h
    refine ⟨clientAEAD, serverAEAD, ?_, ?_, rfl, rfl, rfl⟩
    · rw [ok_of_mapError hck]
      exact ok_of_mapError hca
    · rw [ok_of_mapError hsk]
      exact ok_of_mapError hsa

theorem keys_of_new
    (hclient : newObfuscatedPacketConn hkdf newGCM randClient key false = .ok client)
    (hserver : newObfuscatedPacketConn hkdf newGCM randServer key true = .ok server) :
    client.recvAEAD = server.sendAEAD ∧ server.recvAEAD = client.sendAEAD ∧
      client.nonceCounter = 0 ∧ server.nonceCounter = 0 := by
  obtain ⟨clientAEAD, serverAEAD, hca, hsa, hcsend, hcrecv, hczero⟩ :=
    newObfuscatedPacketConn_ok hclient
  obtain ⟨clientAEAD', serverAEAD', hca', hsa', hssend, hsrecv, hszero⟩ :=
    newObfuscatedPacketConn_ok hserver
  rw [hca] at hca'
  rw [hsa] at hsa'
  cases hca'
  cases hsa'
  exact ⟨hcrecv.trans hssend.symm, hsrecv.trans hcsend.symm, hczero, hszero⟩

/-- **Authenticated delivery, at most once.** -/
theorem readFrom_authenticated [DecidableEq Key] (aead : AEAD Key gcmTagSize)
    (hclient : newObfuscatedPacketConn hkdf newGCM randClient key false = .ok client)
    (hserver : newObfuscatedPacketConn hkdf newGCM randServer key true = .ok server)
    (hkeys : client.sendAEAD ≠ server.sendAEAD) (acts : List Action)
    (hfew : AllSteps (step aead) Few (start client server) acts) :
    AllStates (step aead) AtMostOnce (start client server) acts ∧
      AllSteps (step aead) (fun s a => ∀ side p datagram t, a = .arrive side p datagram →
        step aead s a = some t → Delivers s side p datagram t) (start client server) acts := by
  obtain ⟨hcrecv, hsrecv, hczero, hszero⟩ := keys_of_new hclient hserver
  have hstart : Inv aead (start client server) := inv_start hcrecv hsrecv hczero hszero hkeys
  constructor
  · refine allStates_of_allSteps (fun t ht => ?_) hfew
    have hinv : Inv aead t := ht.invariant (Inv aead) hstart fun s a u hs hok hu => hs.step hok hu
    exact hinv.atMostOnce
  · refine allSteps_of_invariant (Inv aead) (fun s a t hs hok ht => hs.step hok ht) ?_ acts _
      hstart hfew
    rintro s a - hs - - side p datagram t rfl hstep
    exact hs.delivers hstep

end Result

/-! ### A whole call -/

section Call

open List

variable {Key : Type} [DecidableEq Key] {aead : AEAD Key gcmTagSize} {s : State Key} {side : Side}
  {p datagram : Bytes}

theorem skip_of_iteration {v : Verdict} {c : Conn Key}
    (h : (s.conn side).iteration aead s.log p datagram = (v, c))
    (hskip : v.packet p datagram = []) :
    step aead s (.arrive side p datagram) =
        some { s with conn := update s.conn side c } ∧
      ∀ rest, (s.conn side).readFromGCM aead s.log p (.ok datagram :: rest) =
        c.readFromGCM aead s.log p rest := by
  constructor
  · rw [step, h]
    simp only [hskip, nil_append, update_eq_self]
  · intro rest
    rw [Conn.readFromGCM, h]
    cases v with
    | returned n q => cases hskip
    | tooShort | decryptError | replayReject => rfl

/-- **A call of `ReadFrom` is a run of arrivals.** Nothing is received while it waits; at its return
it is the last datagram it took. -/
theorem run_readFromGCM (side : Side) (p : Bytes) (ds : List Bytes) (s : State Key) :
    ∃ taken, taken <+: ds ∧
      match (s.conn side).readFromGCM aead s.log p (ds.map .ok) with
      | (none, c) => taken = ds ∧
          run (step aead) s (taken.map (.arrive side p)) =
            some { s with conn := update s.conn side c }
      | (some (.ok (n, q)), c) => ∃ datagram, taken.getLast? = some datagram ∧
          run (step aead) s (taken.map (.arrive side p)) =
            some { s with
              conn := update s.conn side c
              received := update s.received side
                ((datagram.take (readBufLen p), q.take n) :: s.received side) }
      | (some (.error _), _) => False := by
  induction ds generalizing s with
  | nil =>
    refine ⟨[], prefix_rfl, rfl, ?_⟩
    rw [update_eq_self]
    rfl
  | cons d ds ih =>
    obtain ⟨v, c, hiter⟩ : ∃ v c, (s.conn side).iteration aead s.log p d = (v, c) :=
      ⟨_, _, rfl⟩
    cases hpacket : v.packet p d with
    | nil =>
      -- the loop goes on as it would in the state after the arrival
      obtain ⟨hstep, hloop⟩ := skip_of_iteration hiter hpacket
      obtain ⟨taken, hprefix, htail⟩ := ih { s with conn := update s.conn side c }
      refine ⟨d :: taken, cons_prefix_cons.2 ⟨rfl, hprefix⟩, ?_⟩
      simp only [update_self, update_idem] at htail
      rw [map_cons, hloop, map_cons, run_cons, hstep, Option.bind_some]
      revert htail
      rcases c.readFromGCM aead s.log p (ds.map .ok) with ⟨_ | (err | ⟨n, q⟩), c⟩
      · rintro ⟨rfl, hrun⟩
        exact ⟨rfl, hrun⟩
      · exact id
      · rintro ⟨datagram, hlast, hrun⟩
        exact ⟨datagram, by rw [getLast?_cons, hlast]; rfl, hrun⟩
    | cons x rest =>
      cases v with
      | tooShort | decryptError | replayReject => cases hpacket
      | returned n q =>
        refine ⟨[d], cons_prefix_cons.2 ⟨rfl, nil_prefix⟩, ?_⟩
        rw [map_cons, Conn.readFromGCM, hiter]
        refine ⟨d, rfl, ?_⟩
        rw [map_cons, run_cons, step, hiter]
        rfl

end Call

/-! ### Two writes of the client, one of them replayed -/

/-- An ideal cipher may be anything that can be undone: what makes it ideal is the log. -/
def plainAEAD : AEAD Bytes gcmTagSize where
  encrypt _ _ plaintext := plaintext ++ List.replicate gcmTagSize 0
  length_encrypt _ _ plaintext := by rw [List.length_append, List.length_replicate]
  encrypt_inj h := List.append_cancel_right h

def labelKey (_ : Bytes) (label : String) : Except String Bytes :=
  .ok (if label = "natproxy-client-to-server" then [1] else [2])

def demoConn (isServer : Bool) : Conn Bytes where
  sendAEAD := if isServer then [2] else [1]
  recvAEAD := if isServer then [1] else [2]
  nonceCounter := 0
  noncePrefix := Vector.replicate 4 7
  recvFilter := none
  isServer := isServer

def demoWire (counter : UInt64) (plaintext : Bytes) : Bytes :=
  List.replicate 4 7 ++ putUint64 counter ++ plaintext ++ List.replicate gcmTagSize 0

def demoActs : List Action :=
  [.writeTo .client [10, 11] (.ok ()), .writeTo .client [] (.error "no route"),
    .arrive .server (List.replicate 8 0) (demoWire 2 []),
    .arrive .server (List.replicate 8 0) (demoWire 1 [10, 11]),
    .arrive .server (List.replicate 8 0) (demoWire 1 [10, 11])]

theorem readFrom_authenticated_demo :
    AllSteps (step plainAEAD) Few (start (demoConn false) (demoConn true)) demoActs ∧
      AllStates (step plainAEAD) AtMostOnce (start (demoConn false) (demoConn true)) demoActs := by
  have hclient : newObfuscatedPacketConn labelKey .ok (.ok (Vector.replicate 4 7))
      (List.replicate 32 0) false = .ok (demoConn false) := rfl
  have hserver : newObfuscatedPacketConn labelKey .ok (.ok (Vector.replicate 4 7))
      (List.replicate 32 0) true = .ok (demoConn true) := rfl
  have hkeys : (demoConn false).sendAEAD ≠ (demoConn true).sendAEAD := by decide
  have hfew : AllSteps (step plainAEAD) Few (start (demoConn false) (demoConn true)) demoActs := by
    decide +kernel
  exact ⟨hfew, (readFrom_authenticated plainAEAD hclient hserver hkeys demoActs hfew).1⟩

example : ((run (step plainAEAD) (start (demoConn false) (demoConn true)) demoActs).map fun t =>
    t.received .server) = some [(demoWire 1 [10, 11], [10, 11]), (demoWire 2 [], [])] := by
  decide +kernel

end NatProxy.WebRTC.Obfs
