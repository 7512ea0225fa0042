import NatProxy.Lib.Transition
import NatProxy.Lib.BigEndian
import Mathlib.Data.List.AList

/-!
# The reliable delivery layer over RTP

Model of `golib/webrtc/media_reliable.go`. An `Endpoint` holds the fields of `reliableRTP` that its
five activities read and write: `Write`, `Read`, `receiveLoop` with `sendAck`, `retransmitLoop` and
`Close`. A frame on the wire is `[2B seqnum][1B flags][payload]` (`encodeFrame`).

The inner channel is the `MediaStreamTransport` of `media_transport.go`: each inner write is one
packet, and a packet longer than the 65536-byte buffer of `receiveLoop` is handed out in several
pieces (`Endpoint.innerRest`). `Net` joins two endpoints. A side's wire is the list of all packets
it ever sent; `receiveLoop` may take any of them at any time, so loss, duplication and reordering
are all covered. Each mutex-delimited section is one step, except that `Write` is one step from its
number to the inner write: a packet may be taken at any later time.

Packets, buffered payloads and unacknowledged frames carry the number of the `Write` call they come
from (`origin`), and an endpoint keeps a record of its completed calls (`writes`, `returned`,
`taken`, `acked`). No branch of the model reads these.
-/

namespace NatProxy.WebRTC.ReliableRTP

open Lib

def reliableFlagData : UInt8 := 0x00

def reliableFlagAck : UInt8 := 0x01

def reliableFlagRetransmit : UInt8 := 0x02

def reliableHeaderSize : Nat := 3

def reliableMaxRetries : Nat := 10

def reliableRTOInit : Nat := 100000000

def reliableWindowSize : Nat := 256

def receiveBufSize : Nat := 65536

def encodeFrame (seq : UInt16) (flags : UInt8) (payload : Bytes) : Bytes :=
  putUint16 seq ++ flags :: payload

/-- A byte string and the `Write` call it comes from, or whose frame it acknowledges. -/
structure Tagged where
  bytes : Bytes
  origin : Nat
deriving DecidableEq, Repr

/-- A frame waiting for its acknowledgement. Times are in nanoseconds. -/
structure ReliableFrame where
  data : Bytes
  sentAt : Nat
  retries : Nat
  origin : Nat
deriving DecidableEq, Repr

/-- One call of `Write`: its payload, and whether the inner write succeeded. -/
structure WriteCall where
  payload : Bytes
  ok : Bool
deriving DecidableEq, Repr

/-- `inHand` is the packet that `receiveLoop` holds between `Read` and its handling; `receiving`: it
has not returned. -/
structure Endpoint where
  writeSeq : UInt16 := 0
  unacked : AList fun _ : UInt16 => ReliableFrame := ∅
  readSeq : UInt16 := 0
  readBuf : AList fun _ : UInt16 => Tagged := ∅
  readPending : Bytes := []
  done : Bool := false
  innerRest : Tagged := ⟨[], 0⟩
  inHand : Option Tagged := none
  receiving : Bool := true
  writes : List WriteCall := []
  returned : Bytes := []
  taken : List Tagged := []
  acked : List Nat := []

inductive ReadResult where
  | data (p : Bytes)
  | eof
deriving DecidableEq, Repr

/-! ## The activities of one endpoint -/

/-- Number the frame, remember it in `unacked`, hand it to the inner channel. If that fails, the
frame stays in `unacked`. -/
def Endpoint.write (e : Endpoint) (now : Nat) (p : Bytes) (innerOk : Bool) :
    Endpoint × List Tagged :=
  let seq := e.writeSeq
  let frame := encodeFrame seq reliableFlagData p
  let origin := e.writes.length
  -- the number wraps around after 65535
  ({ e with
      writeSeq := seq + 1
      unacked := e.unacked.insert seq ⟨frame, now, 0, origin⟩
      writes := e.writes ++ [⟨p, innerOk⟩] },
    if innerOk then [⟨frame, origin⟩] else [])

/-- `Read` with a buffer of `n` bytes; `none` while it waits on `readCond`. -/
def Endpoint.read (e : Endpoint) (n : Nat) : Option (Endpoint × ReadResult) :=
  -- the rest of the last payload comes first, also after `Close`
  if e.readPending ≠ [] then
    some ({ e with
      readPending := e.readPending.drop n
      returned := e.returned ++ e.readPending.take n }, .data (e.readPending.take n))
  else if e.done then
    some (e, .eof)
  else
    match e.readBuf.lookup e.readSeq with
    | some d =>
      some ({ e with
        readBuf := e.readBuf.erase e.readSeq
        readSeq := e.readSeq + 1
        readPending := d.bytes.drop n
        returned := e.returned ++ d.bytes.take n
        taken := e.taken ++ [d] }, .data (d.bytes.take n))
    | none => none

/-- The inner channel keeps what does not fit the buffer for its next `Read`. -/
def Endpoint.accept (e : Endpoint) (pkt : Tagged) : Endpoint :=
  { e with
    inHand := some ⟨pkt.bytes.take receiveBufSize, pkt.origin⟩
    innerRest := ⟨pkt.bytes.drop receiveBufSize, pkt.origin⟩ }

/-- Head of `receiveLoop`: return when `done` is closed, otherwise read from the inner channel,
whose next packet would be `pkt?`. -/
def Endpoint.poll (e : Endpoint) (pkt? : Option Tagged) : Option Endpoint :=
  if e.done then
    some { e with receiving := false }
  else if e.innerRest.bytes ≠ [] then
    some (e.accept e.innerRest)
  else
    pkt?.map e.accept

def sendAck (seq : UInt16) (origin : Nat) : Tagged :=
  ⟨encodeFrame seq reliableFlagAck [], origin⟩

/-- The data branch; the acknowledgement goes out also if the window has no room. -/
def Endpoint.handleData (e : Endpoint) (seq : UInt16) (payload : Tagged) : Endpoint × List Tagged :=
  ({ e with
      inHand := none
      readBuf := if e.readBuf.keys.length < reliableWindowSize then e.readBuf.insert seq payload
        else e.readBuf },
    [sendAck seq payload.origin])

def Endpoint.handleAck (e : Endpoint) (seq : UInt16) : Endpoint :=
  { e with
    inHand := none
    unacked := e.unacked.erase seq
    acked := e.acked ++ (e.unacked.lookup seq).toList.map ReliableFrame.origin }

/-- Short frames and frames with other flags are skipped. -/
def Endpoint.handle (e : Endpoint) (pkt : Tagged) : Endpoint × List Tagged :=
  match pkt.bytes with
  | hi :: lo :: flags :: payload =>
    if flags = reliableFlagData ∨ flags = reliableFlagRetransmit then
      e.handleData (getUint16 hi lo) ⟨payload, pkt.origin⟩
    else if flags = reliableFlagAck then
      (e.handleAck (getUint16 hi lo), [])
    else
      ({ e with inHand := none }, [])
  | _ => ({ e with inHand := none }, [])

/-- The frames that `receiveLoop` treats as data. -/
def isDataFrame : Bytes → Bool
  | _ :: _ :: flags :: _ => flags = reliableFlagData ∨ flags = reliableFlagRetransmit
  | _ => false

def frameSeq : Bytes → UInt16
  | hi :: lo :: _ => getUint16 hi lo
  | _ => 0

/-- The frames that `receiveLoop` treats as acknowledgements. -/
def isAckFrame : Bytes → Bool
  | _ :: _ :: flags :: _ => flags = reliableFlagAck
  | _ => false

/-- After the timeout the frame is sent again with the retransmit flag, or dropped when its retries
are used up. -/
def retransmitOne (now : Nat) (st : (AList fun _ : UInt16 => ReliableFrame) × List Tagged)
    (seq : UInt16) : (AList fun _ : UInt16 => ReliableFrame) × List Tagged :=
  match st.1.lookup seq with
  | none => st
  | some frame =>
    -- the timeout doubles with every retry
    if now - frame.sentAt > reliableRTOInit * (1 <<< frame.retries) then
      if frame.retries ≥ reliableMaxRetries then
        (st.1.erase seq, st.2)
      else
        (st.1.insert seq { frame with retries := frame.retries + 1, sentAt := now },
          st.2 ++ [⟨frame.data.set 2 reliableFlagRetransmit, frame.origin⟩])
    else st

def Endpoint.retransmit (e : Endpoint) (now : Nat) : Endpoint × List Tagged :=
  let r := e.unacked.keys.foldl (retransmitOne now) (e.unacked, [])
  ({ e with unacked := r.1 }, r.2)

def Endpoint.close (e : Endpoint) : Endpoint := { e with done := true }

/-! ## Two endpoints -/

inductive Side where
  | a
  | b
deriving DecidableEq, Repr

def Side.peer : Side → Side
  | .a => .b
  | .b => .a

/-- Two endpoints, all packets each of them sent, and the clock. -/
structure Net where
  epA : Endpoint := {}
  epB : Endpoint := {}
  wireA : List Tagged := []
  wireB : List Tagged := []
  now : Nat := 0

def Net.ep (net : Net) : Side → Endpoint
  | .a => net.epA
  | .b => net.epB

def Net.wire (net : Net) : Side → List Tagged
  | .a => net.wireA
  | .b => net.wireB

def Net.set (net : Net) (s : Side) (r : Endpoint × List Tagged) : Net :=
  match s with
  | .a => { net with epA := r.1, wireA := net.wireA ++ r.2 }
  | .b => { net with epB := r.1, wireB := net.wireB ++ r.2 }

def Net.tick (net : Net) (d : Nat) : Net := { net with now := net.now + d }

/-- The steps of a run. `poll s i` lets the inner channel of `s` hand out the `i`-th packet sent by
the peer. -/
inductive Action where
  | write (s : Side) (p : Bytes) (innerOk : Bool)
  | read (s : Side) (n : Nat)
  | poll (s : Side) (i : Nat)
  | handle (s : Side)
  | retransmit (s : Side)
  | close (s : Side)
  | tick (d : Nat)
deriving DecidableEq, Repr

def step (net : Net) : Action → Option Net
  | .write s p innerOk => some (net.set s ((net.ep s).write net.now p innerOk))
  | .read s n => ((net.ep s).read n).map fun r => net.set s (r.1, [])
  | .poll s i =>
    -- any packet sent so far: the inner channel may lose, repeat and reorder packets
    if (net.ep s).receiving ∧ (net.ep s).inHand = none then
      ((net.ep s).poll (net.wire s.peer)[i]?).map fun e => net.set s (e, [])
    else none
  | .handle s => (net.ep s).inHand.map fun pkt => net.set s ((net.ep s).handle pkt)
  | .retransmit s => some (net.set s ((net.ep s).retransmit net.now))
  | .close s => some (net.set s ((net.ep s).close, []))
  | .tick d => some (net.tick d)

abbrev Reachable (ok : Net → Action → Prop) (net : Net) : Prop := Reaches step ok {} net

end NatProxy.WebRTC.ReliableRTP
