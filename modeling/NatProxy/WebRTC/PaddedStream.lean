import NatProxy.Lib.Transition
import NatProxy.Lib.BigEndian

/-!
# The padded stream

Model of `golib/webrtc/padding.go` and `padding_burst.go`. `Conn` is one direction between two
`paddedStream`s over a reliable byte pipe: the writer's `burstOnce`, the bytes in the pipe, and the
reader's `readBuf`. Every inner write is one step, so the burst of the first `Write`, the frames and
the calls of the peer's `Read` interleave in any order.

What the code draws at random (pad lengths, pad bytes, decoys) is part of the event, and `step`
accepts exactly the choices that the calls of `rand` can make. `Read` stays inside its loop until a
payload or an error turns up. On an open pipe without bytes `Read` waits, and no step is taken; on a
closed one it is an error.

`written` and `returned` record the completed calls; no branch reads them.
-/

namespace NatProxy.WebRTC

open List

/-- The buffers of `relay`, so the longest payload it passes to `Write`. -/
def relayBufSize : Nat := 128 * 1024

end NatProxy.WebRTC

namespace NatProxy.WebRTC.PaddedStream

open Lib

/-! ## The frames on the wire -/

def paddingFlagNone : UInt8 := 0x00

def paddingFlagPad : UInt8 := 0x01

def paddingFlagDecoy : UInt8 := 0x02

def paddingFlagBurstEnd : UInt8 := 0x03

/-- A length as the two bytes that stand for it. The conversion `uint16(len)` keeps the low sixteen
bits only. -/
def lengthField (n : Nat) : Bytes := putUint16 (UInt16.ofNat n)

def payloadFrame (pad p : Bytes) : Bytes :=
  if pad.length = 0 then
    paddingFlagNone :: (lengthField p.length ++ p)
  else
    paddingFlagPad :: (lengthField pad.length ++ (pad ++ (lengthField p.length ++ p)))

def decoyFrame (data : Bytes) : Bytes :=
  paddingFlagDecoy :: (lengthField data.length ++ data)

def paddingBurst (decoys : List Bytes) : Bytes :=
  (decoys.map decoyFrame).flatten ++ [paddingFlagBurstEnd]

/-! ## The reader -/

/-- What `io.ReadFull` and `io.CopyN` report when the inner stream ends early. -/
inductive InnerErr where
  | eof
  | unexpectedEOF
deriving DecidableEq, Repr

inductive ReadErr where
  | inner (e : InnerErr)
  | wrapped (context : String) (e : InnerErr)
  | unknownFlags (flags : UInt8)
deriving DecidableEq, Repr

/-- The error stands for an inner stream that ran out of bytes. -/
def ReadErr.isShort : ReadErr → Bool
  | .unknownFlags _ => false
  | _ => true

def readFull (n : Nat) (inner : Bytes) : Except InnerErr (Bytes × Bytes) :=
  if n ≤ inner.length then .ok (inner.take n, inner.drop n)
  else .error (if inner = [] then .eof else .unexpectedEOF)

/-- `io.ReadFull` with a 2-byte buffer, decoded as a big-endian length. -/
def readLen : Bytes → Except InnerErr (Nat × Bytes)
  | hi :: lo :: rest => .ok ((getUint16 hi lo).toNat, rest)
  | [_] => .error .unexpectedEOF
  | [] => .error .eof

def discard (n : Nat) (inner : Bytes) : Except InnerErr Bytes :=
  if n ≤ inner.length then .ok (inner.drop n) else .error .eof

/-- One turn of the loop of `Read`; each outcome has the bytes that are left. -/
inductive FrameRead where
  | payload (p rest : Bytes)
  | skip (rest : Bytes)
  | fail (e : ReadErr) (rest : Bytes)
deriving DecidableEq, Repr

/-- The length-prefixed payload that ends the frames `0x00` and `0x01`. -/
def readPayload (inner : Bytes) : FrameRead :=
  match readLen inner with
  | .error e => .fail (.wrapped "padding: read payload len" e) []
  | .ok (payloadLen, inner) =>
    -- `continue` on an empty payload
    if payloadLen = 0 then .skip inner
    else
      match readFull payloadLen inner with
      | .error e => .fail (.wrapped "padding: read payload" e) []
      | .ok (payload, inner) => .payload payload inner

def readFrame : Bytes → FrameRead
  | [] => .fail (.inner .eof) []
  | flags :: inner =>
    if flags = paddingFlagNone then readPayload inner
    else if flags = paddingFlagPad then
      match readLen inner with
      | .error e => .fail (.wrapped "padding: read padLen" e) []
      | .ok (padLen, inner) =>
        match discard padLen inner with
        | .error e => .fail (.wrapped "padding: discard pad" e) []
        | .ok inner => readPayload inner
    else if flags = paddingFlagDecoy then
      match readLen inner with
      | .error e => .fail (.wrapped "padding: read decoy len" e) []
      | .ok (decoyLen, inner) =>
        match discard decoyLen inner with
        | .error e => .fail (.wrapped "padding: discard decoy" e) []
        | .ok inner => .skip inner
    else if flags = paddingFlagBurstEnd then .skip inner
    else .fail (.unknownFlags flags) inner

/-! ### What one turn consumes -/

variable {inner rest : Bytes} {n : Nat}

theorem readLen_ok (h : readLen inner = .ok (n, rest)) : inner.length = rest.length + 2 := by
  match inner, h with
  | _ :: _ :: _, h =>
    simp only [readLen, Except.ok.injEq, Prod.mk.injEq] at h
    obtain ⟨-, rfl⟩ := h
    rfl

theorem discard_ok (h : discard n inner = .ok rest) : rest = inner.drop n := by
  unfold discard at h
  split at h
  · cases h
    rfl
  · cases h

variable {p : Bytes}

theorem readFull_ok (h : readFull n inner = .ok (p, rest)) : p.length = n ∧ inner = p ++ rest := by
  unfold readFull at h
  split at h
  · rename_i hn
    cases h
    exact ⟨List.length_take_of_le hn, (List.take_append_drop n inner).symm⟩
  · cases h

/-- What a turn leaves, together with the payload it found, is shorter than `n` bytes. -/
def FrameRead.Within (n : Nat) : FrameRead → Prop
  | .payload p rest => p ≠ [] ∧ p.length + rest.length < n
  | .skip rest => rest.length < n
  | .fail _ _ => True

theorem FrameRead.Within.mono {m : Nat} {r : FrameRead} (h : r.Within m) (hmn : m ≤ n) :
    r.Within n := by
  cases r with
  | payload p rest => exact ⟨h.1, Nat.lt_of_lt_of_le h.2 hmn⟩
  | skip rest => exact Nat.lt_of_lt_of_le h hmn
  | fail e rest => trivial

theorem readPayload_within (inner : Bytes) : (readPayload inner).Within inner.length := by
  unfold readPayload
  cases hl : readLen inner with
  | error e => trivial
  | ok out =>
    obtain ⟨n, tail⟩ := out
    have hlen := readLen_ok hl
    dsimp only
    split_ifs with hn
    · show tail.length < inner.length
      omega
    · cases hf : readFull n tail with
      | error e => trivial
      | ok out =>
        obtain ⟨hp, happ⟩ := readFull_ok hf
        rw [happ, List.length_append] at hlen
        refine ⟨fun hnil => hn ?_, by omega⟩
        rw [← hp, hnil]
        rfl

theorem readFrame_within (inner : Bytes) : (readFrame inner).Within inner.length := by
  cases inner with
  | nil => trivial
  | cons flags inner =>
    rw [readFrame, List.length_cons]
    -- one case per flags byte, in the order of the code
    split_ifs
    · exact (readPayload_within inner).mono (Nat.le_succ _)
    · cases hl : readLen inner with
      | error e => trivial
      | ok out =>
        dsimp only
        cases hd : discard out.1 out.2 with
        | error e => trivial
        | ok tail =>
          apply (readPayload_within tail).mono
          rw [discard_ok hd, List.length_drop, readLen_ok hl]
          omega
    · cases hl : readLen inner with
      | error e => trivial
      | ok out =>
        dsimp only
        cases hd : discard out.1 out.2 with
        | error e => trivial
        | ok tail =>
          show tail.length < inner.length + 1
          rw [discard_ok hd, List.length_drop, readLen_ok hl]
          omega
    · exact Nat.lt_succ_self _
    · trivial

/-- The loop of `Read`: skip frames without payload until a payload or an error. -/
def nextPayload (inner : Bytes) : Except (ReadErr × Bytes) (Bytes × Bytes) :=
  match h : readFrame inner with
  | .payload p rest => .ok (p, rest)
  | .skip rest =>
    have : rest.length < inner.length := by
      have hw := readFrame_within inner
      rwa [h] at hw
    nextPayload rest
  | .fail e rest => .error (e, rest)
termination_by inner.length

theorem nextPayload_of_payload (h : readFrame inner = .payload p rest) :
    nextPayload inner = .ok (p, rest) := by
  rw [nextPayload]
  split <;> simp_all

theorem nextPayload_of_skip (h : readFrame inner = .skip rest) :
    nextPayload inner = nextPayload rest := by
  rw [nextPayload]
  split <;> simp_all

theorem nextPayload_of_fail {e : ReadErr}
    (h : readFrame inner = .fail e rest) : nextPayload inner = .error (e, rest) := by
  rw [nextPayload]
  split <;> simp_all

theorem nextPayload_consumes (h : nextPayload inner = .ok (p, rest)) :
    p ≠ [] ∧ p.length + rest.length < inner.length := by
  -- on the number of bytes left, since a skipped frame of any kind shortens them
  induction hn : inner.length using Nat.strongRecOn generalizing inner with
  | _ n ih =>
    subst hn
    have hw := readFrame_within inner
    cases hf : readFrame inner with
    | payload q tail =>
      rw [nextPayload_of_payload hf] at h
      cases h
      rwa [hf] at hw
    | skip tail =>
      rw [nextPayload_of_skip hf] at h
      rw [hf] at hw
      obtain ⟨hp, hlen⟩ := ih tail.length hw h rfl
      exact ⟨hp, Nat.lt_trans hlen hw⟩
    | fail e tail =>
      rw [nextPayload_of_fail hf] at h
      cases h

/-! ## One direction of a connection -/

/-- The pad lengths of a `paddedStream`. All callers pass `0` as `minPad`. -/
structure PadConfig where
  minPad : Nat
  maxPad : Nat
deriving DecidableEq, Repr

/-- The pad lengths that `Write` can draw. -/
def PadConfig.Allows (cfg : PadConfig) (padLen : Nat) : Prop :=
  if cfg.minPad < cfg.maxPad then cfg.minPad ≤ padLen ∧ padLen < cfg.maxPad
  else if 0 < cfg.maxPad then padLen = cfg.minPad
  else padLen = 0

instance (cfg : PadConfig) (n : Nat) : Decidable (cfg.Allows n) := by
  unfold PadConfig.Allows
  infer_instance

/-- The decoys that `sendPaddingBurst` can draw: 3 to 8 of 64 to 1024 bytes. -/
def BurstDrawn (decoys : List Bytes) : Prop :=
  (3 ≤ decoys.length ∧ decoys.length ≤ 8) ∧ ∀ d ∈ decoys, 64 ≤ d.length ∧ d.length ≤ 1024

instance (decoys : List Bytes) : Decidable (BurstDrawn decoys) :=
  inferInstanceAs (Decidable (_ ∧ _))

/-- The data that `WriteDecoy(size)` can draw. -/
def DecoyDrawn (size : Int) (data : Bytes) : Prop :=
  if size ≤ 0 then 64 ≤ data.length ∧ data.length ≤ 1024 else (data.length : Int) = size

instance (size : Int) (data : Bytes) : Decidable (DecoyDrawn size data) := by
  unfold DecoyDrawn
  infer_instance

/-- A writing `paddedStream`, the pipe, and the peer that reads from it. -/
structure Conn where
  burstSent : Bool := false
  closed : Bool := false
  wire : Bytes := []
  readBuf : Bytes := []
  written : Bytes := []
  returned : Bytes := []
deriving DecidableEq, Repr

/-- `Read` with a buffer of `n` bytes; `none` while it waits for more bytes. -/
def Conn.read (s : Conn) (n : Nat) : Option (Conn × Except ReadErr Bytes) :=
  if s.readBuf ≠ [] then
    some ({ s with
      readBuf := s.readBuf.drop n
      returned := s.returned ++ s.readBuf.take n }, .ok (s.readBuf.take n))
  else
    match nextPayload s.wire with
    | .ok (payload, rest) =>
      some ({ s with
        wire := rest
        readBuf := payload.drop n
        returned := s.returned ++ payload.take n }, .ok (payload.take n))
    | .error (e, rest) =>
      -- on an open pipe the inner reads wait instead of ending early
      if e.isShort && !s.closed then none
      else some ({ s with wire := rest }, .error e)

/-- The inner writes, and the calls of `Read` and `Close`. -/
inductive Event where
  | burst (decoys : List Bytes)
  | write (pad p : Bytes)
  | writeDecoy (size : Int) (data : Bytes)
  | writeBurstEnd
  | read (n : Nat)
  | close
deriving DecidableEq, Repr

def step (cfg : PadConfig) (s : Conn) : Event → Option Conn
  | .burst decoys =>
    if s.closed = false ∧ s.burstSent = false ∧ BurstDrawn decoys then
      some { s with burstSent := true, wire := s.wire ++ paddingBurst decoys }
    else none
  | .write pad p =>
    if s.closed = false ∧ s.burstSent = true ∧ cfg.Allows pad.length then
      some { s with wire := s.wire ++ payloadFrame pad p, written := s.written ++ p }
    else none
  | .writeDecoy size data =>
    if s.closed = false ∧ DecoyDrawn size data then
      some { s with wire := s.wire ++ decoyFrame data }
    else none
  | .writeBurstEnd =>
    if s.closed = false then some { s with wire := s.wire ++ [paddingFlagBurstEnd] } else none
  | .read n => (s.read n).map Prod.fst
  | .close => some { s with closed := true }

/-! ## Reading back what was written -/

theorem readLen_lengthField (n : Nat) (rest : Bytes) :
    readLen (lengthField n ++ rest) = .ok (n % 65536, rest) := by
  show Except.ok ((getUint16 _ _).toNat, rest) = _
  rw [getUint16_putUint16, UInt16.toNat_ofNat']

theorem readPayload_written (p rest : Bytes) :
    readPayload (lengthField p.length ++ (p ++ rest)) =
      if p.length % 65536 = 0 then .skip (p ++ rest)
      else .payload (p.take (p.length % 65536)) (p.drop (p.length % 65536) ++ rest) := by
  have hk : p.length % 65536 ≤ p.length := Nat.mod_le _ _
  unfold readPayload
  rw [readLen_lengthField]
  dsimp only
  by_cases h0 : p.length % 65536 = 0
  · rw [if_pos h0, if_pos h0]
  · rw [if_neg h0, if_neg h0, readFull,
      if_pos (Nat.le_trans hk (by rw [List.length_append]; omega)),
      List.take_append_of_le_length hk, List.drop_append_of_le_length hk]

theorem discard_written (data rest : Bytes) :
    discard (data.length % 65536) (data ++ rest) =
      .ok (data.drop (data.length % 65536) ++ rest) := by
  have hk : data.length % 65536 ≤ data.length := Nat.mod_le _ _
  rw [discard, if_pos (Nat.le_trans hk (by rw [List.length_append]; omega)),
    List.drop_append_of_le_length hk]

theorem readFrame_payloadFrame (pad p rest : Bytes) :
    readFrame (payloadFrame pad p ++ rest) =
      readPayload (pad.drop (pad.length % 65536) ++ (lengthField p.length ++ (p ++ rest))) := by
  unfold payloadFrame
  split_ifs with h0
  · -- without pad bytes there is nothing to drop
    rw [List.length_eq_zero_iff] at h0
    subst h0
    rw [List.cons_append, List.append_assoc, readFrame, if_pos rfl]
    rfl
  · rw [List.cons_append]
    simp only [List.append_assoc]
    rw [readFrame, if_neg (by decide), if_pos rfl, readLen_lengthField]
    dsimp only
    rw [discard_written]

theorem readFrame_decoyFrame (data rest : Bytes) :
    readFrame (decoyFrame data ++ rest) = .skip (data.drop (data.length % 65536) ++ rest) := by
  rw [decoyFrame, List.cons_append, List.append_assoc, readFrame, if_neg (by decide),
    if_neg (by decide), if_pos rfl, readLen_lengthField]
  dsimp only
  rw [discard_written]

theorem readFrame_burstEnd (rest : Bytes) :
    readFrame (paddingFlagBurstEnd :: rest) = .skip rest := by
  rw [readFrame, if_neg (by decide), if_neg (by decide), if_neg (by decide), if_pos rfl]

/-! ## The format -/

section Format

open List

/-- A frame whose lengths fit the 16-bit field. -/
inductive Frame where
  | plain (payload : Bytes) (h : payload.length < 65536)
  | padded (pad payload : Bytes) (hpad : pad.length < 65536) (h : payload.length < 65536)
  | decoy (data : Bytes) (h : data.length < 65536)
  | burstEnd

def Frame.bytes : Frame → Bytes
  | .plain payload _ => paddingFlagNone :: (lengthField payload.length ++ payload)
  | .padded pad payload _ _ =>
    paddingFlagPad ::
      (lengthField pad.length ++ (pad ++ (lengthField payload.length ++ payload)))
  | .decoy data _ => paddingFlagDecoy :: (lengthField data.length ++ data)
  | .burstEnd => [paddingFlagBurstEnd]

def Frame.payload : Frame → Bytes
  | .plain payload _ => payload
  | .padded _ payload _ _ => payload
  | .decoy _ _ => []
  | .burstEnd => []

def encode (fs : List Frame) : Bytes := fs.flatMap Frame.bytes

def payloads (fs : List Frame) : Bytes := fs.flatMap Frame.payload

/-- A turn on a frame, with what follows it. -/
def Frame.outcome (f : Frame) (rest : Bytes) : FrameRead :=
  if f.payload = [] then .skip rest else .payload f.payload rest

theorem readPayload_field {payload : Bytes} (h : payload.length < 65536) (rest : Bytes) :
    readPayload (lengthField payload.length ++ (payload ++ rest)) =
      if payload = [] then .skip rest else .payload payload rest := by
  rw [readPayload_written, Nat.mod_eq_of_lt h, take_length, drop_length, nil_append]
  by_cases hnil : payload = []
  · subst hnil
    rfl
  · rw [if_neg hnil, if_neg (mt length_eq_zero_iff.mp hnil)]

theorem readFrame_bytes (f : Frame) (rest : Bytes) :
    readFrame (f.bytes ++ rest) = f.outcome rest := by
  cases f with
  | plain payload h =>
    rw [Frame.bytes, cons_append, append_assoc, readFrame, if_pos rfl,
      readPayload_field h]
    rfl
  | padded pad payload hpad h =>
    have hdiscard := discard_written pad (lengthField payload.length ++ (payload ++ rest))
    rw [Nat.mod_eq_of_lt hpad, drop_length, nil_append] at hdiscard
    rw [Frame.bytes, cons_append, append_assoc, append_assoc, append_assoc,
      readFrame, if_neg (by decide), if_pos rfl, readLen_lengthField, Nat.mod_eq_of_lt hpad]
    dsimp only
    rw [hdiscard]
    dsimp only
    rw [readPayload_field h]
    rfl
  | decoy data h =>
    have hread := readFrame_decoyFrame data rest
    rw [Nat.mod_eq_of_lt h, drop_length] at hread
    exact hread
  | burstEnd => exact readFrame_burstEnd rest

/-- The next payload of a stream that begins with frames. -/
theorem nextPayload_encode (fs : List Frame) (tail : Bytes) :
    (payloads fs = [] ∧ nextPayload (encode fs ++ tail) = nextPayload tail) ∨
      ∃ p gs, p ≠ [] ∧ payloads fs = p ++ payloads gs ∧
        nextPayload (encode fs ++ tail) = .ok (p, encode gs ++ tail) := by
  induction fs with
  | nil => exact .inl ⟨rfl, rfl⟩
  | cons f fs ih =>
    have hread := readFrame_bytes f (encode fs ++ tail)
    rw [Frame.outcome] at hread
    have heq : encode (f :: fs) ++ tail = f.bytes ++ (encode fs ++ tail) := by
      rw [encode, flatMap_cons, append_assoc]
      rfl
    rw [heq, payloads, flatMap_cons]
    by_cases hempty : f.payload = []
    · rw [if_pos hempty] at hread
      rw [hempty, nextPayload_of_skip hread]
      exact ih
    · rw [if_neg hempty] at hread
      exact .inr ⟨f.payload, fs, hempty, rfl, nextPayload_of_payload hread⟩

end Format

end NatProxy.WebRTC.PaddedStream
